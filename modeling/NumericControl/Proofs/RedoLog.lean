import NumericControl.Proofs.Journal

/-!
# The journal is a redo log

Whoever keeps the state that a machine started from and its journal needs nothing else to
know its state at any time.  The machine may have been asked for anything in between, in
any order and across blocks, and may have refused any part of it: a call that is refused
leaves no trace, and one that is accepted leaves one entry, which holds all that the call
did to the state.

## Main definitions

* `Simulator.written`, `Simulator.writtenAll` — the entries that requests leave behind.

## Main results

* `Simulator.writes_respond`, `Simulator.writes_respondAll` — what a request writes, and what
  many write.
* `Simulator.journal_is_redo_log` — **the state is the first one with the journal replayed**.
-/

namespace NumericControl

namespace Simulator

variable {α : Type} [Number α]

/-! ### Requests -/

/-- The entry that a request leaves behind: that of its call, if the call is accepted. -/
def written (m : Simulator α) : Request α → List (Entry α)
  | .beginBlock => []
  | .call c =>
    match (Machine.perform m c).2 with
    | none => [m.entryOf c]
    | some _ => []

/-- The entries that requests leave behind, one after another. -/
def writtenAll (m : Simulator α) : List (Request α) → List (Entry α)
  | [] => []
  | r :: requests => m.written r ++ writtenAll (Machine.respond m r) requests

theorem writes_respond (m : Simulator α) (r : Request α) :
    m.Writes (m.written r) (Machine.respond m r) := by
  cases r with
  | beginBlock => exact ⟨rfl, (List.append_nil _).symm⟩
  | call c =>
    change m.Writes (m.written (.call c)) (Machine.perform m c).1
    cases h : (Machine.perform m c).2 with
    | none =>
      have hone : m.written (.call c) = [m.entryOf c] := by simp only [written, h]
      rw [fst_perform_of_accepted h, hone]
      exact m.writes_accepted c
    | some fault =>
      have hnone : m.written (.call c) = [] := by simp only [written, h]
      rw [fst_perform_of_refused h, hnone]
      exact .nil m

/-- Requests write their entries in order. -/
theorem writes_respondAll (m : Simulator α) (requests : List (Request α)) :
    m.Writes (m.writtenAll requests) (Machine.respondAll m requests) := by
  induction requests generalizing m with
  | nil => exact .nil m
  | cons r requests ih => exact (m.writes_respond r).append (ih (Machine.respond m r))

/-! ### The redo log -/

/-- **The state is the first one with the journal replayed.**

A machine starts in any state, with any limits and an empty journal, and is asked for
anything, whether it accepts or not.  Then its journal holds one entry for each call that
it accepted, in order, and these turn the first state into the present one.  A further call
is accepted, adds its one entry, and does to the state what the entry does; or it is
refused, and the machine is left as it was, with its state, its journal and the readings
that it keeps. -/
theorem journal_is_redo_log (limits : Limits α) (state : State α) (requests : List (Request α)) :
    let first := ofState limits state
    let m := Machine.respondAll first requests
    m.state = m.journal.toList.foldl Entry.replay state ∧
    m.journal.toList = first.writtenAll requests ∧
    ∀ c : Call α,
      (∃ m', Machine.perform m c = (m', none) ∧ m'.journal = m.journal.push (m.entryOf c) ∧
        m'.state = (m.entryOf c).replay m.state) ∨
      ∃ fault, Machine.perform m c = (m, some fault) := by
  intro first m
  have hwrites : first.Writes (first.writtenAll requests) m := first.writes_respondAll requests
  have hjournal : m.journal.toList = first.writtenAll requests := hwrites.journal
  refine ⟨?_, hjournal, fun c => ?_⟩
  · rw [hjournal]
    exact hwrites.state
  · rcases m.perform_cases c with hrefused | haccepted
    · exact .inr hrefused
    · exact .inl ⟨m.accepted c, haccepted, rfl, rfl⟩

end Simulator

end NumericControl
