import NumericControl.Proofs.Line

/-!
# What a line writes

The simulated machine refuses a call and stays as it is, or it accepts the call.  Then
it writes one entry to its journal, and its state is the old one with the entry
replayed.  So what a line did to the state is told by the entries that it added, and
these come from the calls that it made.

## Main definitions

* `Simulator.entryOf`, `Simulator.accepted` — the entry of a call, and the machine that
  accepts the call.
* `Simulator.refusal?` — the fault with which a call is refused, if it is.
* `Simulator.Writes` — a machine becomes another one through some entries.
* `Session.requests`, `Session.entries` — what a line asks of the machine, and what it adds
  to the journal.
* `Session.through` — the session behind some lines.

## Main results

* `Simulator.perform_eq` — **what a call does**.
* `Session.machine_eq_respondAll` — a line leaves the machine as what it asks for does.
* `Session.writes_entries` — a line changes the state through the entries it adds.
* `Session.exists_call_of_mem_entries` — every entry is that of a call of the line.
-/

namespace NumericControl

/-- Whether an entry is a move. -/
def Entry.isMotion {α : Type} : Entry α → Bool
  | .motion .. => true
  | _ => false

/-- Whether a call is a move. -/
def Call.isMotion {α : Type} : Call α → Bool
  | .traverse _ | .feed _ | .arc .. => true
  | _ => false

/-- An entry that is no move leaves what is carried from line to line. -/
theorem State.motion_replay {α : Type} [Number α] (s : State α) {e : Entry α}
    (he : e.isMotion = false) :
    (e.replay s).nextAction = s.nextAction ∧ (e.replay s).motionMode = s.motionMode ∧
      (e.replay s).motionCount = s.motionCount := by
  cases e with
  | motion => exact absurd he (by simp [Entry.isMotion])
  | _ => exact ⟨rfl, rfl, rfl⟩

/-! ### Calls -/

namespace Simulator

variable {α : Type} [Number α]

/-- The entry of a call, if the machine accepts it. -/
def entryOf (m : Simulator α) : Call α → Entry α
  | .inverseFeedRate enabled => .inverseFeedRate enabled
  | .feedRate rate => .feedRate (m.storedFeedRate rate)
  | .spindleSpeed speed => .spindleSpeed speed
  | .selectTool tool => .selectTool tool
  | .changeTool => .changeTool m.state.selectedTool
  | .spindle mode => .spindle mode
  | .dwell seconds => .dwell seconds
  | .plane plane => .selectPlane plane
  | .units units => .lengthUnits units
  | .distanceMode mode => .distanceMode mode
  | .home => .returnToHome
  | .originOffsets point => .originOffsets (m.originFor point)
  | .traverse target => .motion .straightTraverse (m.toMachine target)
  | .feed target => .motion .straightFeed (m.toMachine target)
  | .arc target _ _ mode => .motion mode (m.toMachine target)

/-- The readings that the machine keeps behind a call: those before the first switch of
units in the block. -/
def carriedBehind (m : Simulator α) : Call α → Option (PerAxis α)
  | .units units =>
    if units ≠ m.state.units ∧ m.carried.isNone then some (.ofFn m.workPosition) else m.carried
  | _ => m.carried

/-- The machine that accepts a call. -/
def accepted (m : Simulator α) (c : Call α) : Simulator α where
  limits := m.limits
  state := Entry.replay m.state (m.entryOf c)
  journal := m.journal.push (m.entryOf c)
  carried := m.carriedBehind c

/-- The fault with which a machine refuses a call, if it does. -/
def refusal? (m : Simulator α) : Call α → Option (MachineFault α)
  | .feedRate rate =>
    if isUnusable rate then some (.outOfRange "feed rate" rate)
    else if !m.state.inverseFeedRate && Number.lt m.limits.maxFeedRate (m.storedFeedRate rate) then
      some (.outOfRange "feed rate" rate)
    else none
  | .spindleSpeed speed =>
    if isUnusable speed || Number.lt m.limits.maxSpindleSpeed speed then
      some (.outOfRange "spindle speed" speed)
    else none
  | .selectTool tool =>
    if m.limits.toolCount < tool then some (.toolOutOfRange tool m.limits.toolCount) else none
  | .dwell seconds =>
    if isUnusable seconds then some (.outOfRange "dwell time" seconds) else none
  | .feed _ => if m.lacksFeedRate then some .feedRateNotSet else none
  | .arc target offset radius mode =>
    if !mode.isArc then some (.notAnArc mode)
    else if m.lacksFeedRate then some .feedRateNotSet
    else (m.checkArc (m.toMachine target) offset radius).map .invalidArc
  | _ => none

/-- **What a call does**: the machine has a fault for it and stays as it is, or accepts it. -/
theorem perform_eq (m : Simulator α) (c : Call α) :
    m.perform c =
      match m.refusal? c with
      | some fault => (m, some fault)
      | none => (m.accepted c, none) := by
  -- only some calls have a guard
  cases c with
  | feedRate rate =>
    simp only [perform, refusal?]
    split
    · rfl
    · split <;> rfl
  | spindleSpeed speed =>
    simp only [perform, refusal?]
    split <;> rfl
  | selectTool tool =>
    simp only [perform, refusal?]
    split <;> rfl
  | dwell seconds =>
    simp only [perform, refusal?]
    split <;> rfl
  | feed target =>
    simp only [perform, refusal?]
    split <;> rfl
  | arc target offset radius mode =>
    simp only [perform, refusal?]
    split
    · rfl
    · split
      · rfl
      · cases m.checkArc (m.toMachine target) offset radius <;> rfl
  | _ => rfl

/-- The machine refuses a call and stays as it is, or accepts it. -/
theorem perform_cases (m : Simulator α) (c : Call α) :
    (∃ fault, m.perform c = (m, some fault)) ∨ m.perform c = (m.accepted c, none) := by
  rw [perform_eq]
  cases m.refusal? c with
  | some fault => exact .inl ⟨fault, rfl⟩
  | none => exact .inr rfl

/-- When a call is refused, and why. -/
theorem snd_perform (m : Simulator α) (c : Call α) : (Machine.perform m c).2 = m.refusal? c := by
  change (m.perform c).2 = m.refusal? c
  rw [perform_eq]
  cases m.refusal? c <;> rfl

theorem fst_perform_of_refused {m : Simulator α} {c : Call α} {fault : MachineFault α}
    (h : (Machine.perform m c).2 = some fault) : (Machine.perform m c).1 = m := by
  rw [snd_perform] at h
  change (m.perform c).1 = m
  rw [perform_eq, h]

theorem fst_perform_of_accepted {m : Simulator α} {c : Call α}
    (h : (Machine.perform m c).2 = none) : (Machine.perform m c).1 = m.accepted c := by
  rw [snd_perform] at h
  change (m.perform c).1 = m.accepted c
  rw [perform_eq, h]

/-- An arc that is accepted is one in a mode of arcs. -/
theorem isArc_of_accepted {m : Simulator α} {target offset : PerAxis α} {radius : α}
    {mode : MotionMode} (h : (Machine.perform m (.arc target offset radius mode)).2 = none) :
    mode.isArc = true := by
  rw [snd_perform] at h
  cases hmode : mode.isArc with
  | true => rfl
  | false =>
    rw [refusal?, hmode] at h
    exact absurd h (by simp)

/-- The entry of a move is a move, and no other is. -/
@[simp] theorem isMotion_entryOf (m : Simulator α) (c : Call α) :
    (m.entryOf c).isMotion = c.isMotion := by
  cases c <;> rfl

/-! ### Entries -/

/-- A machine becomes another one through some entries: they are added to its journal,
and its state is the old one with all of them replayed. -/
structure Writes (m : Simulator α) (entries : List (Entry α)) (m' : Simulator α) : Prop where
  state : m'.state = entries.foldl Entry.replay m.state
  journal : m'.journal.toList = m.journal.toList ++ entries

theorem Writes.nil (m : Simulator α) : m.Writes [] m where
  state := rfl
  journal := (List.append_nil _).symm

theorem Writes.append {m m' m'' : Simulator α} {first rest : List (Entry α)}
    (h : m.Writes first m') (h' : m'.Writes rest m'') : m.Writes (first ++ rest) m'' where
  state := by rw [h'.state, h.state, List.foldl_append]
  journal := by rw [h'.journal, h.journal, List.append_assoc]

theorem writes_accepted (m : Simulator α) (c : Call α) : m.Writes [m.entryOf c] (m.accepted c) where
  state := rfl
  journal := Array.toList_push

/-- A machine writes the entries of the calls that are made. -/
theorem writes_run (m : Simulator α) (calls : List (Call α)) :
    ∃ entries, m.Writes entries (Machine.run m calls).1 ∧
      ∀ e ∈ entries, ∃ m', ∃ c ∈ Machine.made m calls, e = entryOf m' c := by
  induction calls generalizing m with
  | nil => exact ⟨[], .nil m, by simp⟩
  | cons c calls ih =>
    cases h : (Machine.perform m c).2 with
    | none =>
      rw [Machine.run_cons_of_accepted calls h, Machine.made_cons_of_accepted calls h]
      obtain ⟨entries, hwrites, hmade⟩ := ih (Machine.perform m c).1
      rw [fst_perform_of_accepted h] at hwrites hmade ⊢
      refine ⟨m.entryOf c :: entries, (m.writes_accepted c).append hwrites, ?_⟩
      intro e he
      rcases List.mem_cons.mp he with rfl | he
      · exact ⟨m, c, by simp, rfl⟩
      · obtain ⟨m', c', hc', rfl⟩ := hmade e he
        exact ⟨m', c', List.mem_cons_of_mem _ hc', rfl⟩
    | some fault =>
      rw [Machine.run_cons_of_refused calls h, fst_perform_of_refused h]
      exact ⟨[], .nil m, by simp⟩

/-- What is carried from line to line is changed by a move only. -/
theorem Writes.motion_eq {m m' : Simulator α} {entries : List (Entry α)}
    (h : m.Writes entries m') (hmotion : ∀ e ∈ entries, e.isMotion = false) :
    m'.state.nextAction = m.state.nextAction ∧ m'.state.motionMode = m.state.motionMode ∧
      m'.state.motionCount = m.state.motionCount := by
  rw [h.state]
  generalize m.state = state
  clear h
  induction entries generalizing state with
  | nil => exact ⟨rfl, rfl, rfl⟩
  | cons e entries ih =>
    obtain ⟨haction, hmode, hcount⟩ := state.motion_replay (hmotion e (by simp))
    obtain ⟨haction', hmode', hcount'⟩ :=
      ih (fun e' he' => hmotion e' (by simp [he'])) (Entry.replay state e)
    rw [List.foldl_cons]
    exact ⟨haction'.trans haction, hmode'.trans hmode, hcount'.trans hcount⟩

end Simulator

/-! ### Lines -/

namespace Session

section

variable {σ α : Type} [Number α] [Machine σ α]

/-- What a line asks of the machine, in order. -/
def requests (s : Session σ) (raw : List Char) : List (Request α) :=
  ((s.withRecord []).step raw).1.machine.requests

/-- The exit that a line takes, with what it asks of the machine on the way. -/
theorem exit_requests (s : Session σ) (raw : List Char) :
    Exit s raw (s.requests raw) (s.step raw).1 (s.step raw).2 := by
  obtain ⟨requests, hrecord, hexit⟩ := s.exit_step raw
  have hrequests : s.requests raw = requests := by
    rw [Session.requests, hrecord]
    rfl
  rwa [hrequests]

/-- A line leaves the machine as what it asks for does. -/
theorem machine_eq_respondAll (s : Session σ) (raw : List Char) :
    (s.step raw).1.machine = Machine.respondAll s.machine (s.requests raw) := by
  have hexit := s.exit_requests raw
  generalize s.requests raw = requests at hexit ⊢
  generalize (s.step raw).1 = s' at hexit ⊢
  generalize (s.step raw).2 = report at hexit
  have hblock (p : Proposal α) : (s.performed p).1 = Machine.respondAll s.machine
      (.beginBlock :: (Machine.made (Machine.beginBlock s.machine) p.plan).map .call) := by
    rw [performed, Machine.fst_run, ← Machine.respondAll_map_call]
    rfl
  cases hexit with
  | notNormal | empty | quit | notBlock => rfl
  | refused | executed => exact hblock _

/-- Every call of a line is in the plan of its block. -/
theorem isBlock_of_mem_requests {s : Session σ} {raw : List Char} {c : Call α}
    (hc : .call c ∈ s.requests raw) : ∃ p, s.IsBlock raw p ∧ c ∈ p.plan :=
  (s.exit_requests raw).isBlock_of_call hc

omit [Number α] [Machine σ α] in
/-- A line that comes to a completion does not fail. -/
theorem eq_ok_of_toOption {result : Except (BlockFault α) Completion} {completion : Completion}
    (h : result.toOption = some completion) : result = .ok completion := by
  cases result with
  | error fault => exact absurd h (by simp [Except.toOption])
  | ok c => rw [Option.some.inj h]

/-- The session behind some lines. -/
def through (s : Session σ) (lines : List (List Char)) : Session σ :=
  lines.foldl (fun s line => (s.step line).1) s

end

variable {α : Type} [Number α]

/-- The entries that a line adds to the journal. -/
def entries (s : Session (Simulator α)) (raw : List Char) : List (Entry α) :=
  (s.step raw).1.machine.journal.toList.drop s.machine.journal.toList.length

/-- A line writes entries of the calls that it makes. -/
theorem writes_step (s : Session (Simulator α)) (raw : List Char) :
    ∃ entries, s.machine.Writes entries (s.step raw).1.machine ∧
      ∀ e ∈ entries, ∃ m c, .call c ∈ s.requests raw ∧ e = Simulator.entryOf m c := by
  have hexit := s.exit_requests raw
  generalize s.requests raw = requests at hexit ⊢
  generalize (s.step raw).1 = s' at hexit ⊢
  generalize (s.step raw).2 = report at hexit
  -- the machine forgets its readings when a block begins, and writes nothing
  have hbegun : s.machine.Writes [] (Machine.beginBlock s.machine) :=
    ⟨rfl, (List.append_nil _).symm⟩
  cases hexit with
  | notNormal | empty | quit => exact ⟨[], .nil _, by simp⟩
  | notBlock => exact ⟨[], hbegun, by simp⟩
  | @refused b p | @executed b p =>
    obtain ⟨entries, hwrites, hmade⟩ := (Machine.beginBlock s.machine).writes_run p.plan
    refine ⟨entries, hbegun.append hwrites, fun e he => ?_⟩
    obtain ⟨m, c, hc, rfl⟩ := hmade e he
    exact ⟨m, c, List.mem_cons_of_mem _ (List.mem_map_of_mem hc), rfl⟩

/-- **A line changes the state through the entries that it adds.** -/
theorem writes_entries (s : Session (Simulator α)) (raw : List Char) :
    s.machine.Writes (s.entries raw) (s.step raw).1.machine := by
  obtain ⟨entries, hwrites, -⟩ := s.writes_step raw
  have hentries : s.entries raw = entries := by
    rw [Session.entries, hwrites.journal, List.drop_left]
  rwa [hentries]

/-- Every entry that a line adds is that of a call of the line. -/
theorem exists_call_of_mem_entries {s : Session (Simulator α)} {raw : List Char} {e : Entry α}
    (he : e ∈ s.entries raw) : ∃ m c, .call c ∈ s.requests raw ∧ e = Simulator.entryOf m c := by
  obtain ⟨entries, hwrites, hmade⟩ := s.writes_step raw
  rw [Session.entries, hwrites.journal, List.drop_left] at he
  exact hmade e he

end Session

end NumericControl
