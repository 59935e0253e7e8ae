import NumericControl.Proofs.Journal

/-!
# Machines under a transformation

A transformation says what becomes of a machine, and of the calls it is asked for, when both
are described anew: its coordinates counted from another point, its lengths told in another
unit, its axes named otherwise.  If a transformed call does to the transformed machine what
the call does to the machine, then so do calls one after another, blocks, and whole lists of
blocks.  The one step is all that has to be looked at, and it comes in two parts: the same
calls are refused, and what is accepted has the same effect.

A fault names numbers, and these may belong to the description.  So two faults are compared
through what a transformation retains of a number.

## Main definitions

* `BlockFault.map` — a fault with other numbers.
* `Transformation` — machines and calls described anew, with the two parts of one step.
* `Session.settle`, `Session.runWords`, `Session.runBlocks` — blocks given by their words.
* `Transformation.Matches` — what a block comes to, and what it does under a transformation.

## Main results

* `Transformation.run` — a run of transformed calls is a transformed run.
* `Transformation.settle` — and so is a block.
* `Session.step_map` — a line is transformed as its command is.
* `Session.runCommand_of_words` — a command does what its words do.
-/

namespace NumericControl

/-! ### Faults and their numbers -/

section

variable {α β : Type}

/-- An arc fault with other numbers. -/
def ArcFault.map (f : α → β) : ArcFault α → ArcFault β
  | .noCenter => .noCenter
  | .sameEnds => .sameEnds
  | .radiusTooSmall radius chord => .radiusTooSmall (f radius) (f chord)

/-- The fault of a refused call with other numbers. -/
def MachineFault.map (f : α → β) : MachineFault α → MachineFault β
  | .outOfRange what value => .outOfRange what (f value)
  | .feedRateNotSet => .feedRateNotSet
  | .toolOutOfRange tool max => .toolOutOfRange tool max
  | .invalidArc fault => .invalidArc (fault.map f)
  | .notAnArc mode => .notAnArc mode

/-- The fault of a block with other numbers. -/
def BlockFault.map (f : α → β) : BlockFault α → BlockFault β
  | .expectedLetter found position => .expectedLetter found position
  | .badNumber letter position => .badNumber letter position
  | .unsupportedWord letter value => .unsupportedWord letter (f value)
  | .tooLong capacity => .tooLong capacity
  | .machine fault => .machine (fault.map f)

@[simp] theorem ArcFault.map_id (fault : ArcFault α) : fault.map id = fault := by
  cases fault <;> rfl

@[simp] theorem MachineFault.map_id : MachineFault.map (id : α → α) = id := by
  funext fault
  cases fault with
  | invalidArc fault => rw [map, ArcFault.map_id, id]
  | _ => rfl

@[simp] theorem BlockFault.map_id : BlockFault.map (id : α → α) = id := by
  funext fault
  cases fault with
  | machine fault => rw [map, MachineFault.map_id, id, id]
  | _ => rfl

end

/-! ### Transformations -/

/-- What becomes of a machine and of the calls it is asked for when both are described anew.
It may be that only some machines and some calls can be, and then a machine has to stay
among these. -/
structure Transformation (α β : Type) [Number α] where
  /-- The machine in the new description. -/
  onMachine : Simulator α → Simulator α
  /-- The call in the new description. -/
  onCall : Call α → Call α
  /-- What is retained of a number of a fault. -/
  value : α → β
  /-- The machines that can be described anew. -/
  Covers : Simulator α → Prop
  /-- The calls that can be described anew. -/
  Admits : Call α → Prop
  beginBlock : ∀ m, Machine.beginBlock (onMachine m) = onMachine (Machine.beginBlock m)
  refusal : ∀ {m c}, Covers m → Admits c →
    ((onMachine m).refusal? (onCall c)).map (MachineFault.map value) =
      (m.refusal? c).map (MachineFault.map value)
  accepted : ∀ {m c}, Covers m → Admits c →
    (onMachine m).accepted (onCall c) = onMachine (m.accepted c)
  covers_beginBlock : ∀ {m}, Covers m → Covers (Machine.beginBlock m)
  covers_accepted : ∀ {m c}, Covers m → Admits c → Covers (m.accepted c)

namespace Transformation

variable {α β : Type} [Number α] (T : Transformation α β) {m : Simulator α} {c : Call α}
  {calls : List (Call α)}

/-- What is retained of the fault of a call. -/
def retained : Option (MachineFault α) → Option (MachineFault β) :=
  Option.map (MachineFault.map T.value)

variable {T}

@[simp] theorem retained_none : T.retained none = none := rfl

@[simp] theorem retained_some (fault : MachineFault α) :
    T.retained (some fault) = some (fault.map T.value) := rfl

/-- The same calls are refused. -/
theorem retained_perform (hm : T.Covers m) (hc : T.Admits c) :
    T.retained (Machine.perform (T.onMachine m) (T.onCall c)).2 =
      T.retained (Machine.perform m c).2 := by
  rw [Simulator.snd_perform, Simulator.snd_perform]
  exact T.refusal hm hc

theorem eq_none_iff_of_retained {fault fault' : Option (MachineFault α)}
    (h : T.retained fault' = T.retained fault) : fault' = none ↔ fault = none := by
  cases fault <;> cases fault' <;> simp_all

/-- **A transformed call does what the call does.** -/
theorem fst_perform (hm : T.Covers m) (hc : T.Admits c) :
    (Machine.perform (T.onMachine m) (T.onCall c)).1 = T.onMachine (Machine.perform m c).1 ∧
      T.Covers (Machine.perform m c).1 := by
  have hsame := eq_none_iff_of_retained (retained_perform hm hc)
  cases h : (Machine.perform m c).2 with
  | none =>
    rw [Simulator.fst_perform_of_accepted h, Simulator.fst_perform_of_accepted (hsame.mpr h)]
    exact ⟨T.accepted hm hc, T.covers_accepted hm hc⟩
  | some fault =>
    obtain ⟨fault', h'⟩ := Option.ne_none_iff_exists'.mp
      (mt hsame.mp (by rw [h]; exact Option.some_ne_none fault))
    rw [Simulator.fst_perform_of_refused h, Simulator.fst_perform_of_refused h']
    exact ⟨rfl, hm⟩

/-- **A run of transformed calls is a transformed run**: the machine is the transformed one,
the same calls are made, and the run ends with the same fault or without one. -/
theorem run (hm : T.Covers m) (hcalls : ∀ c ∈ calls, T.Admits c) :
    (Machine.run (T.onMachine m) (calls.map T.onCall)).1 =
        T.onMachine (Machine.run m calls).1 ∧
      T.retained (Machine.run (T.onMachine m) (calls.map T.onCall)).2 =
        T.retained (Machine.run m calls).2 ∧
      Machine.made (T.onMachine m) (calls.map T.onCall) = (Machine.made m calls).map T.onCall ∧
      T.Covers (Machine.run m calls).1 := by
  induction calls generalizing m with
  | nil => exact ⟨rfl, rfl, rfl, hm⟩
  | cons c calls ih =>
    obtain ⟨hc, hcalls⟩ := List.forall_mem_cons.mp hcalls
    obtain ⟨hmachine, hcovers⟩ := fst_perform hm hc
    have hretained := retained_perform hm hc
    rw [List.map_cons]
    cases h : (Machine.perform m c).2 with
    | none =>
      have h' := (eq_none_iff_of_retained hretained).mpr h
      rw [Machine.run_cons_of_accepted _ h, Machine.run_cons_of_accepted _ h',
        Machine.made_cons_of_accepted _ h, Machine.made_cons_of_accepted _ h', hmachine]
      obtain ⟨hlast, hfault, hmade, hstays⟩ := ih hcovers hcalls
      exact ⟨hlast, hfault, by rw [hmade, List.map_cons], hstays⟩
    | some fault =>
      cases h' : (Machine.perform (T.onMachine m) (T.onCall c)).2 with
      | none => exact absurd ((eq_none_iff_of_retained hretained).mp h') (by simp [h])
      | some fault' =>
        rw [Machine.run_cons_of_refused _ h, Machine.run_cons_of_refused _ h',
          Machine.made_cons_of_refused _ h, Machine.made_cons_of_refused _ h']
        rw [h, h'] at hretained
        exact ⟨hmachine, hretained, rfl, hcovers⟩

end Transformation

/-! ### Blocks given by their words -/

/-- What a block comes to. -/
structure BlockReport (σ α : Type) where
  /-- The session behind the block. -/
  session : Session σ
  /-- How the block ends. -/
  result : Except (BlockFault α) Completion
  /-- The calls that the machine is asked for, of which it may refuse the last. -/
  made : List (Call α)

namespace Session

section

variable {σ τ : Type}

/-- The session with another machine. -/
def map (f : σ → τ) (s : Session σ) : Session τ :=
  ⟨f s.machine, s.flow, s.blocks⟩

variable {α : Type} [Number α] [Machine σ α]

/-- A line does the same on another machine if its command does, in case it has one. -/
theorem step_map [Machine τ α] {f : σ → τ} {s : Session σ} {raw : List Char}
    (h : ∀ b, normalize (α := α) raw = .ok b → b.IsCommand →
      (s.map f).runCommand b.command =
        ((s.runCommand b.command).1.map f, (s.runCommand b.command).2)) :
    (s.map f).step raw = ((s.step raw).1.map f, (s.step raw).2) := by
  cases hn : normalize (α := α) raw with
  | error fault =>
    rw [step_of_notNormal hn, step_of_notNormal hn]
    rfl
  | ok b =>
    cases he : b.isEmpty with
    | true =>
      rw [step_of_isEmpty hn he, step_of_isEmpty hn he]
      rfl
    | false =>
      cases hq : b.isQuit with
      | true =>
        rw [step_of_isQuit hn hq, step_of_isQuit hn hq]
        rfl
      | false => rw [step_of_isCommand hn ⟨he, hq⟩, step_of_isCommand hn ⟨he, hq⟩, h b hn ⟨he, hq⟩]

/-- What a block comes to whose words have been gathered, or have a fault. -/
def settle (s : Session σ) : Except (BlockFault α) (Proposal α) → BlockReport σ α
  | .error fault => ⟨⟨Machine.beginBlock s.machine, none, s.blocks⟩, .error fault, []⟩
  | .ok p =>
    { session :=
        match (s.performed p).2 with
        | none => ⟨(s.performed p).1, p.changes.programFlow, s.blocks + 1⟩
        | some _ => ⟨(s.performed p).1, none, s.blocks⟩
      result := ended (s.performed p).2
      made := Machine.made (Machine.beginBlock s.machine) p.plan }

/-- A command comes to what its proposal comes to. -/
theorem runCommand_eq_settle (s : Session σ) (command : List Char) :
    s.runCommand command =
      ((s.settle (s.proposal command)).session, (s.settle (s.proposal command)).result) := by
  cases hp : s.proposal command with
  | error fault => exact runCommand_of_fault hp
  | ok p =>
    cases hr : (s.performed p).2 with
    | none => rw [runCommand_of_performed hp hr, settle, hr, ended]
    | some fault => rw [runCommand_of_refused hp hr, settle, hr, ended]

/-- What the words of a block make of what the machine carries once the block has begun. -/
def gathered (s : Session σ) (ws : List (Word α)) : Except (BlockFault α) (Proposal α) :=
  ws.foldlM Proposal.apply (Proposal.ofMachine (Machine.beginBlock s.machine))

/-- What a block comes to that is given by its words. -/
def runWords (s : Session σ) (ws : List (Word α)) : BlockReport σ α :=
  s.settle (s.gathered ws)

/-- What blocks come to, one after another. -/
def runBlocks (s : Session σ) : List (List (Word α)) → List (BlockReport σ α)
  | [] => []
  | ws :: blocks => s.runWords ws :: (s.runWords ws).session.runBlocks blocks

/-- **A command does what its words do**, if all of it can be read. -/
theorem runCommand_of_words (s : Session σ) {command : List Char} {ws : List (Word α)}
    (h : (WordReader.ofText command).words = .ok ws) :
    s.runCommand command = ((s.runWords ws).session, (s.runWords ws).result) := by
  rw [runCommand_eq_settle, runWords, proposal, Proposal.ofCommand, Proposal.applyAll_of_words h,
    gathered]

end

end Session

namespace Transformation

variable {α β : Type} [Number α] (T : Transformation α β)

/-- A block comes to the same under a transformation: its session is on the transformed
machine, it ends in the same way, and the calls made are the transformed ones. -/
structure Matches (r r' : BlockReport (Simulator α) α) : Prop where
  session : r'.session = r.session.map T.onMachine
  result : r'.result.mapError (BlockFault.map T.value) =
    r.result.mapError (BlockFault.map T.value)
  made : r'.made = r.made.map T.onCall

/-- If all of a fault is retained, blocks that come to the same end in the same way. -/
theorem Matches.result_eq {T : Transformation α α} {r r' : BlockReport (Simulator α) α}
    (h : T.Matches r r') (hvalue : T.value = id) : r'.result = r.result := by
  have hresult := h.result
  rw [hvalue, BlockFault.map_id] at hresult
  cases hr : r.result <;> cases hr' : r'.result <;> rw [hr, hr'] at hresult <;> exact hresult

variable {T} {s : Session (Simulator α)}

theorem mapError_ended (fault : Option (MachineFault α)) :
    (Session.ended fault).mapError (BlockFault.map T.value) =
      match T.retained fault with
      | none => .ok .ok
      | some fault => .error (.machine fault) := by
  cases fault <;> rfl

/-- **A transformed block does what the block does.** -/
theorem settle (hs : T.Covers (Machine.beginBlock s.machine)) {p q : Proposal α}
    (hadmits : ∀ c ∈ p.plan, T.Admits c) (hplan : q.plan = p.plan.map T.onCall)
    (hflow : q.changes.programFlow = p.changes.programFlow) :
    T.Matches (s.settle (.ok p)) ((s.map T.onMachine).settle (.ok q)) ∧
      T.Covers (s.settle (.ok p)).session.machine := by
  obtain ⟨hmachine, hretained, hmade, hcovers⟩ := run hs hadmits
  have hperformed : (s.map T.onMachine).performed q =
      Machine.run (T.onMachine (Machine.beginBlock s.machine)) (p.plan.map T.onCall) := by
    rw [Session.performed, hplan, ← T.beginBlock]
    rfl
  rw [← hperformed] at hmachine hretained
  change _ = T.onMachine (s.performed p).1 at hmachine
  change _ = T.retained (s.performed p).2 at hretained
  change T.Covers (s.performed p).1 at hcovers
  refine ⟨⟨?_, ?_, ?_⟩, ?_⟩
  · have hsame := eq_none_iff_of_retained hretained
    simp only [Session.settle]
    cases h : (s.performed p).2 with
    | none =>
      rw [hsame.mpr h, hmachine, hflow]
      rfl
    | some fault =>
      cases h' : ((s.map T.onMachine).performed q).2 with
      | none => exact absurd (hsame.mp h') (by simp [h])
      | some fault' =>
        rw [hmachine]
        rfl
  · simp only [Session.settle]
    rw [mapError_ended, mapError_ended, hretained]
  · simp only [Session.settle]
    rw [← hmade, hplan, ← T.beginBlock]
    rfl
  · simp only [Session.settle]
    cases (s.performed p).2 <;> exact hcovers

/-- A block with a fault in its words does nothing under a transformation, either. -/
theorem settle_error (hs : T.Covers (Machine.beginBlock s.machine)) (fault : BlockFault α) :
    T.Matches (s.settle (.error fault)) ((s.map T.onMachine).settle (.error fault)) ∧
      T.Covers (s.settle (.error fault)).session.machine := by
  refine ⟨⟨?_, rfl, rfl⟩, hs⟩
  simp only [Session.settle, Session.map, T.beginBlock]

end Transformation

end NumericControl
