import NumericControl.Proofs.CancelledMotion
import NumericControl.Proofs.RedoLog

/-!
# What is carried from line to line

A block that names no operation asks for the one that the machine carries.  If the machine
ever carried a dwell, a homing or a change of the origin, every later line would repeat it.
It never does: the only calls that write what is carried are the moves, and a move writes
itself.  So a machine that was fresh carries nothing as long as it has not moved, and a
motion from then on, and what is not a motion is done by a line that asks for it.

How often the machine has moved is told by its journal.  The count that the machine keeps is
that number as far as a word of 64 bits goes.

## Main definitions

* `Simulator.moves` — how many moves are in the journal.
* `Simulator.CarriesMotion` — a machine carries a motion as soon as it has moved, and nothing
  before.
* `Entry.operation?` — the operation that an entry is the trace of.
* `AsksLastFor` — the last operation that a line asks for is that of one of some G codes.

## Main results

* `Simulator.carriesMotion_respond`, `Simulator.carriesMotion_respondAll` — a request keeps it
  so, and so do many.
* `Session.carriesMotion_through` — and so do lines.
* `Session.countP_entries_le` — a line adds one operation at most.
* `Session.operations_are_asked_for` — **no dwell, homing or change of the origin is repeated**,
  and no move is made before one is asked for.
-/

namespace NumericControl

/-! ### The machine -/

namespace Simulator

variable {α : Type} [Number α] {m : Simulator α}

/-- How many moves are in the journal. -/
def moves (m : Simulator α) : Nat :=
  m.journal.toList.countP Entry.isMotion

/-- A machine carries a motion as soon as it has moved, and nothing before; the mode is one
that moves; and the moves are counted. -/
structure CarriesMotion (m : Simulator α) : Prop where
  nextAction : m.state.nextAction = if m.moves = 0 then .none else .motion
  motionMode : m.state.motionMode ≠ .cancel
  motionCount : m.state.motionCount.toNat = m.moves % UInt64.size

theorem carriesMotion_fresh (limits : Limits α) : (ofState limits .initial).CarriesMotion where
  nextAction := rfl
  motionMode := show (default : MotionMode) ≠ .cancel by decide
  motionCount := rfl

theorem moves_accepted (m : Simulator α) (c : Call α) :
    (m.accepted c).moves = m.moves + if c.isMotion then 1 else 0 := by
  rw [moves, accepted, Array.toList_push, List.countP_append, List.countP_singleton,
    isMotion_entryOf]
  rfl

/-- A move writes itself into what is carried. -/
theorem carriesMotion_moved (h : m.CarriesMotion) {mode : MotionMode} {c : Call α}
    {target : PerAxis α} (hentry : m.entryOf c = .motion mode target) (hmode : mode ≠ .cancel) :
    (m.accepted c).CarriesMotion := by
  have hmoves : (m.accepted c).moves = m.moves + 1 := by
    rw [moves_accepted, ← isMotion_entryOf m, hentry]
    rfl
  have hstate : (m.accepted c).state = (Entry.motion mode target).replay m.state := by
    rw [← hentry]
    rfl
  refine ⟨?_, ?_, ?_⟩
  · rw [hstate, hmoves, if_neg (Nat.succ_ne_zero _)]
    rfl
  · rw [hstate]
    exact hmode
  · have hcount : ((Entry.motion mode target).replay m.state).motionCount.toNat =
        (m.state.motionCount.toNat + 1) % UInt64.size := UInt64.toNat_add _ _
    rw [hstate, hmoves, hcount, h.motionCount, Nat.mod_add_mod]

/-- **A request keeps what is carried a motion, or nothing.** -/
theorem carriesMotion_respond (h : m.CarriesMotion) (r : Request α) :
    (Machine.respond m r).CarriesMotion := by
  cases r with
  | beginBlock => exact ⟨h.nextAction, h.motionMode, h.motionCount⟩
  | call c =>
    change (Machine.perform m c).1.CarriesMotion
    cases hc : (Machine.perform m c).2 with
    | some fault =>
      rw [fst_perform_of_refused hc]
      exact h
    | none =>
      rw [fst_perform_of_accepted hc]
      cases hmotion : c.isMotion with
      | false =>
        have hmoves : (m.accepted c).moves = m.moves := by rw [moves_accepted, hmotion]; rfl
        have hentry : (m.entryOf c).isMotion = false := by rw [isMotion_entryOf, hmotion]
        obtain ⟨haction, hmode, hcount⟩ := m.state.motion_replay hentry
        refine ⟨?_, ?_, ?_⟩
        · rw [hmoves, ← h.nextAction]
          exact haction
        · rw [show (m.accepted c).state.motionMode = m.state.motionMode from hmode]
          exact h.motionMode
        · rw [hmoves, ← h.motionCount]
          exact congrArg UInt64.toNat hcount
      | true =>
        cases c with
        | traverse | feed => exact carriesMotion_moved h rfl (by decide)
        | arc =>
          refine carriesMotion_moved h rfl ?_
          rintro rfl
          exact absurd (isArc_of_accepted hc) (by decide)
        | _ => exact absurd hmotion (by simp [Call.isMotion])

theorem carriesMotion_respondAll (h : m.CarriesMotion) (requests : List (Request α)) :
    (Machine.respondAll m requests).CarriesMotion := by
  induction requests generalizing m with
  | nil => exact h
  | cons r requests ih => exact ih (carriesMotion_respond h r)

omit [Number α] in
/-- What a machine shows of it. -/
theorem CarriesMotion.carried (h : m.CarriesMotion) :
    (m.state.nextAction = .none ∨ m.state.nextAction = .motion) ∧
      m.state.motionMode ≠ .cancel ∧
      (m.moves < UInt64.size → (m.state.nextAction = .none ↔ m.state.motionCount = 0)) := by
  refine ⟨?_, h.motionMode, fun hfits => ?_⟩
  · rw [h.nextAction]
    split
    · exact .inl rfl
    · exact .inr rfl
  · have hcount : m.state.motionCount = 0 ↔ m.moves = 0 := by
      rw [← UInt64.toNat_inj, h.motionCount, Nat.mod_eq_of_lt hfits]
      rfl
    rw [hcount, h.nextAction]
    split <;> simp [*]

end Simulator

/-! ### Operations -/

/-- The operation that an entry is the trace of, if it is that of one. -/
def Entry.operation? {α : Type} : Entry α → Option NextAction
  | .dwell _ => some .dwell
  | .returnToHome => some .goHome
  | .originOffsets _ => some .offsetCoordinates
  | .motion .. => some .motion
  | _ => none

/-- Whether an entry is a dwell, a homing, a change of the origin or a move. -/
def Entry.isOperation {α : Type} (e : Entry α) : Bool :=
  e.operation?.isSome

/-- The entry of a call shows which operation its block asks for. -/
theorem Proposal.nextAction_of_asksFor {α : Type} [Number α] {p : Proposal α} {c : Call α}
    (h : p.AsksFor c) {m : Simulator α} {action : NextAction}
    (haction : (m.entryOf c).operation? = some action) : p.nextAction = action := by
  cases c with
  | dwell => exact Option.some.inj haction ▸ h.1
  | home => exact Option.some.inj haction ▸ h
  | originOffsets => exact Option.some.inj haction ▸ h.1
  | traverse => exact Option.some.inj haction ▸ h.1
  | feed => exact Option.some.inj haction ▸ h.1
  | arc => exact Option.some.inj haction ▸ h.1
  | _ => exact absurd haction (by simp [Simulator.entryOf, Entry.operation?])

namespace Simulator

variable {α : Type} [Number α]

theorem isOperation_entryOf (m : Simulator α) (c : Call α) :
    (m.entryOf c).isOperation = c.isOperation := by
  cases c <;> rfl

/-- Calls leave no more operations in the journal than there are among them. -/
theorem countP_writtenAll_le (m : Simulator α) (calls : List (Call α)) :
    (m.writtenAll (calls.map .call)).countP Entry.isOperation ≤ calls.countP Call.isOperation := by
  induction calls generalizing m with
  | nil => exact Nat.le_refl _
  | cons c calls ih =>
    have hone : (m.written (.call c)).countP Entry.isOperation ≤ [c].countP Call.isOperation := by
      cases hc : (Machine.perform m c).2 with
      | none =>
        have hwritten : m.written (.call c) = [m.entryOf c] := by simp only [written, hc]
        refine Nat.le_of_eq ?_
        rw [hwritten, List.countP_singleton, List.countP_singleton, isOperation_entryOf]
      | some fault =>
        have hwritten : m.written (.call c) = [] := by simp only [written, hc]
        rw [hwritten]
        exact Nat.zero_le _
    rw [List.map_cons, writtenAll, List.countP_append, ← List.singleton_append (l := calls),
      List.countP_append]
    exact Nat.add_le_add hone (ih _)

end Simulator

/-- The G codes that ask for an operation. -/
def operationCodes : List Int :=
  [0, 1, 2, 3, 4, 28, 30, 92]

section

variable {α : Type} [Number α]

/-- A word that asks for no operation has none of the codes of one. -/
theorem Word.gCode?_of_nextAction?_eq_none {w : Word α} (h : w.nextAction? = none) :
    ∀ code ∈ operationCodes, w.gCode? ≠ some code := by
  intro code hcode hw
  rw [Word.nextAction?, hw, Option.bind_some] at h
  have hall : ∀ code ∈ operationCodes, NextAction.ofCode? code ≠ none := by decide
  exact hall code hcode h

/-- The G codes that ask for an operation of a kind. -/
def NextAction.codes : NextAction → List Int
  | .none => []
  | .motion => moveCodes
  | .dwell => [4]
  | .goHome => [28, 30]
  | .offsetCoordinates => [92]

theorem NextAction.mem_codes_of_ofCode? {code : Int} {action : NextAction}
    (h : NextAction.ofCode? code = some action) : code ∈ action.codes := by
  unfold NextAction.ofCode? at h
  split at h
  case h_9 => exact absurd h (by simp)
  all_goals
    obtain rfl := Option.some.inj h
    decide

/-- The last word of a line that asks for an operation has one of some G codes. -/
def AsksLastFor (α : Type) [Number α] (codes : List Int) (raw : List Char) : Prop :=
  ∃ (before : List (Word α)) (w : Word α) (after : List (Word α)),
    lineWords raw = before ++ w :: after ∧ (∃ code ∈ codes, w.gCode? = some code) ∧
      ∀ w' ∈ after, ∀ code ∈ operationCodes, w'.gCode? ≠ some code

theorem asksLastFor_of_lastOf {raw : List Char} {action : NextAction}
    (h : lastOf Word.nextAction? (lineWords (α := α) raw) = some action) :
    AsksLastFor α action.codes raw := by
  obtain ⟨before, w, after, hwords, hw, hafter⟩ := exists_append_of_lastOf _ h
  obtain ⟨code, hcode, haction⟩ := Option.bind_eq_some_iff.mp hw
  exact ⟨before, w, after, hwords, ⟨code, NextAction.mem_codes_of_ofCode? haction, hcode⟩,
    fun w' hw' => Word.gCode?_of_nextAction?_eq_none (hafter w' hw')⟩

/-! ### Lines -/

namespace Session

variable {s : Session (Simulator α)} {raw : List Char}

/-- The entries of a line are those that its requests leave behind. -/
theorem entries_eq_writtenAll (s : Session (Simulator α)) (raw : List Char) :
    s.entries raw = s.machine.writtenAll (s.requests raw) := by
  have hwrites := s.machine.writes_respondAll (s.requests raw)
  rw [← machine_eq_respondAll] at hwrites
  rw [entries, hwrites.journal, List.drop_left]

/-- **A line adds one operation at most.** -/
theorem countP_entries_le (s : Session (Simulator α)) (raw : List Char) :
    (s.entries raw).countP Entry.isOperation ≤ 1 := by
  by_cases hblock : ∃ p, s.IsBlock raw p
  · obtain ⟨p, hp⟩ := hblock
    rw [entries_eq_writtenAll, (s.exit_requests raw).requests_of_isBlock hp]
    refine Nat.le_trans (Simulator.countP_writtenAll_le _ _) ?_
    refine Nat.le_trans (Machine.made_isPrefix _ _).sublist.countP_le ?_
    rw [List.countP_eq_length_filter]
    exact p.length_filter_isOperation_plan_le
  · -- without a block there is no call, and so no entry
    have hnone : s.entries raw = [] := by
      refine List.eq_nil_iff_forall_not_mem.mpr fun e he => ?_
      obtain ⟨m, c, hc, -⟩ := exists_call_of_mem_entries he
      obtain ⟨p, hp, -⟩ := isBlock_of_mem_requests hc
      exact hblock ⟨p, hp⟩
    rw [hnone]
    exact Nat.zero_le _

/-- An operation that the machine does not carry is asked for by the line that makes it. -/
theorem asksLastFor_of_isBlock {p : Proposal α} (h : s.IsBlock raw p)
    (hcarried : s.machine.state.nextAction ≠ p.nextAction) :
    AsksLastFor α p.nextAction.codes raw := by
  have hfollows := h.follows.nextAction
  cases hlast : lastOf Word.nextAction? (lineWords (α := α) raw) with
  | none =>
    rw [hlast] at hfollows
    exact absurd hfollows.symm hcarried
  | some action =>
    rw [hlast] at hfollows
    rw [show p.nextAction = action from hfollows]
    exact asksLastFor_of_lastOf hlast

/-- **An operation that is found in the journal was asked for by its line**, unless the machine
carried it. -/
theorem asksLastFor_of_mem_entries {e : Entry α} (he : e ∈ s.entries raw) {action : NextAction}
    (haction : e.operation? = some action) (hcarried : s.machine.state.nextAction ≠ action) :
    AsksLastFor α action.codes raw := by
  obtain ⟨m, c, hc, rfl⟩ := exists_call_of_mem_entries he
  obtain ⟨p, hp, hmem⟩ := isBlock_of_mem_requests hc
  obtain rfl := Proposal.nextAction_of_asksFor ((p.mem_plan_iff c).mp hmem) haction
  exact asksLastFor_of_isBlock hp hcarried

/-- Lines keep what is carried a motion, or nothing. -/
theorem carriesMotion_through (h : s.machine.CarriesMotion) (lines : List (List Char)) :
    (s.through lines).machine.CarriesMotion := by
  induction lines generalizing s with
  | nil => exact h
  | cons line lines ih =>
    refine ih (s := (s.step line).1) ?_
    rw [machine_eq_respondAll]
    exact Simulator.carriesMotion_respondAll h _

/-- **No dwell, homing or change of the origin is repeated, and no move is made before one is
asked for.**

A session starts with a fresh machine and goes through lines, any of which may fail.  At any
time within a further line the machine carries a motion or nothing, nothing exactly as long
as it has not counted a move, provided that the count has not run over; and its mode is not
cancelled.  The line adds one operation to the journal at most.  A dwell, a homing or a
change of the origin is that of the last word of the line that asks for an operation, and
for a move some word was asked, in this line or before. -/
theorem operations_are_asked_for (limits : Limits α) (lines : List (List Char))
    (raw : List Char) :
    let s := (ofMachine (Simulator.ofState limits .initial)).through lines
    (∀ requests, requests <+: s.requests raw →
      let m := Machine.respondAll s.machine requests
      (m.state.nextAction = .none ∨ m.state.nextAction = .motion) ∧
        m.state.motionMode ≠ .cancel ∧
        (m.moves < UInt64.size → (m.state.nextAction = .none ↔ m.state.motionCount = 0))) ∧
    (s.step raw).1.machine = Machine.respondAll s.machine (s.requests raw) ∧
    (s.entries raw).countP Entry.isOperation ≤ 1 ∧
    (∀ seconds, .dwell seconds ∈ s.entries raw → AsksLastFor α [4] raw) ∧
    (.returnToHome ∈ s.entries raw → AsksLastFor α [28, 30] raw) ∧
    (∀ offset, .originOffsets offset ∈ s.entries raw → AsksLastFor α [92] raw) ∧
    ∀ e ∈ s.entries raw, e.isMotion = true →
      ∃ line ∈ lines ++ [raw], ∃ w ∈ lineWords (α := α) line, w.isMove = true := by
  intro s
  have hfresh : s.machine.CarriesMotion :=
    carriesMotion_through (Simulator.carriesMotion_fresh limits) lines
  have hcarried {action : NextAction} (hnone : action ≠ .none) (hmotion : action ≠ .motion) :
      s.machine.state.nextAction ≠ action := by
    rcases hfresh.carried.1 with h | h <;> rw [h]
    · exact hnone.symm
    · exact hmotion.symm
  refine ⟨fun requests _ => (Simulator.carriesMotion_respondAll hfresh requests).carried,
    machine_eq_respondAll s raw, countP_entries_le s raw,
    fun seconds he => asksLastFor_of_mem_entries he rfl (hcarried (by decide) (by decide)),
    fun he => asksLastFor_of_mem_entries he rfl (hcarried (by decide) (by decide)),
    fun offset he => asksLastFor_of_mem_entries he rfl (hcarried (by decide) (by decide)), ?_⟩
  intro e he hmotion
  by_cases hasked : ∃ line ∈ lines ++ [raw], ∃ w ∈ lineWords (α := α) line, w.isMove = true
  · exact hasked
  · -- without a word for a move nothing moves the machine, since it started without a motion
    have hno : ∀ line ∈ lines ++ [raw], ∀ w ∈ lineWords (α := α) line, w.isMove = false := by
      intro line hline w hw
      cases hmove : w.isMove with
      | false => rfl
      | true => exact absurd ⟨line, hline, w, hw, hmove⟩ hasked
    have hstart : (default : NextAction) ≠ .motion := by decide
    have hstill := isMotion_entries_through
      (s := ofMachine (Simulator.ofState limits .initial)) hstart hno e he
    exact absurd (hmotion.symm.trans hstill) (by decide)

end Session

end

end NumericControl
