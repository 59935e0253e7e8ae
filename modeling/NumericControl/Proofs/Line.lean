import NumericControl.Proofs.Dispatch
import NumericControl.Proofs.Words
import NumericControl.Session
import NumericControl.Simulator.Basic

/-!
# What a line does

A line leaves its session at one of six exits: it has no normal form, it is empty, it
asks to leave the interpreter, it is no block, one of its calls is refused, or it is
executed.  Each exit fixes the session behind the line, what the line comes to, and
what the machine was asked for on the way.

## Main definitions

* `NormalBlock.IsCommand` — there is something to execute.
* `Session.withRecord` — a session on the same machine, with a record of requests.
* `Session.Exit` — the six exits of a line.
* `Session.IsBlock`, `Session.Executes` — all words of a line have a meaning, and no call
  of its block is refused.

## Main results

* `Session.exit_step` — every line takes one of the exits.
* `Session.step_asks_for_whole_blocks_only` — a machine is asked for calls only if the
  whole line is a block, and what the session knows afterwards.
-/

namespace NumericControl

/-- There is a command, and it does not ask to leave the interpreter. -/
def NormalBlock.IsCommand (b : NormalBlock) : Prop :=
  b.isEmpty = false ∧ b.isQuit = false

namespace Session

variable {σ α : Type} [Number α] [Machine σ α]

/-- The session on a machine with a record of what it was asked for. -/
def withRecord (s : Session σ) (requests : List (Request α)) : Session (Traced σ α) :=
  ⟨⟨s.machine, requests⟩, s.flow, s.blocks⟩

/-- The proposal that a command makes of what the machine carries once the block has
begun. -/
def proposal (s : Session σ) (command : List Char) : Except (BlockFault α) (Proposal α) :=
  Proposal.ofCommand command (Machine.beginBlock s.machine)

/-- The machine after the calls of a block, up to the first that is refused, and the
fault of that one. -/
def performed (s : Session σ) (p : Proposal α) : σ × Option (MachineFault α) :=
  Machine.run (Machine.beginBlock s.machine) p.plan

/-! ### A step, exit by exit -/

section Steps

variable {s : Session σ} {raw : List Char} {b : NormalBlock} {p : Proposal α}

theorem step_of_notNormal {fault : BlockFault α} (hn : normalize raw = .error fault) :
    s.step raw = (⟨s.machine, none, s.blocks⟩, ⟨none, .error fault⟩) := by
  simp only [step, hn]

theorem step_of_isEmpty (hn : normalize (α := α) raw = .ok b) (he : b.isEmpty = true) :
    s.step raw = (⟨s.machine, none, s.blocks⟩, ⟨b.message, .ok .ok⟩) := by
  simp only [step, hn, he, if_true]

theorem step_of_isQuit (hn : normalize (α := α) raw = .ok b) (hq : b.isQuit = true) :
    s.step raw = (⟨s.machine, none, s.blocks⟩, ⟨b.message, .ok .quit⟩) := by
  have he : b.isEmpty = false := by
    rw [NormalBlock.isQuit, beq_iff_eq] at hq
    rw [NormalBlock.isEmpty, hq]
    rfl
  simp [step, hn, he, hq]

/-- A line with a command is the run of the command. -/
theorem step_of_isCommand (hn : normalize (α := α) raw = .ok b) (hb : b.IsCommand) :
    s.step raw = ((s.runCommand b.command).1, ⟨b.message, (s.runCommand b.command).2⟩) := by
  simp [step, hn, hb.1, hb.2]

theorem runCommand_of_fault {command : List Char} {fault : BlockFault α}
    (hp : s.proposal command = .error fault) :
    s.runCommand command = (⟨Machine.beginBlock s.machine, none, s.blocks⟩, .error fault) := by
  rw [proposal] at hp
  simp only [runCommand, hp]

theorem runCommand_of_refused {command : List Char} {fault : MachineFault α}
    (hp : s.proposal command = .ok p) (hr : (s.performed p).2 = some fault) :
    s.runCommand command = (⟨(s.performed p).1, none, s.blocks⟩, .error (.machine fault)) := by
  rw [proposal] at hp
  rw [performed, ← Proposal.execute_eq_run] at hr ⊢
  simp only [runCommand, hp]
  split
  · next heq =>
    rw [heq] at hr ⊢
    rw [Option.some.inj hr]
  · next heq => rw [heq] at hr; exact absurd hr (by simp)

theorem runCommand_of_performed {command : List Char} (hp : s.proposal command = .ok p)
    (hr : (s.performed p).2 = none) :
    s.runCommand command =
      (⟨(s.performed p).1, p.changes.programFlow, s.blocks + 1⟩, .ok .ok) := by
  rw [proposal] at hp
  rw [performed, ← Proposal.execute_eq_run] at hr ⊢
  simp only [runCommand, hp]
  split
  · next heq => rw [heq] at hr; exact absurd hr (by simp)
  · next heq => rw [heq]

/-- A record does not change how a command is read. -/
theorem proposal_withRecord (s : Session σ) (requests : List (Request α)) (command : List Char) :
    (s.withRecord requests).proposal command = s.proposal command :=
  rfl

/-- The machine is asked for a beginning, and for the calls of the block up to the first
that is refused. -/
theorem performed_withRecord (s : Session σ) (p : Proposal α) :
    (s.withRecord []).performed p =
      (⟨(s.performed p).1,
        .beginBlock :: (Machine.made (Machine.beginBlock s.machine) p.plan).map .call⟩,
        (s.performed p).2) :=
  Machine.run_traced _ _

end Steps

/-! ### Exits -/

/-- The exits of a line: what the machine was asked for, the session behind the line,
and what the line comes to. -/
inductive Exit (s : Session σ) (raw : List Char) :
    List (Request α) → Session σ → LineReport α → Prop
  /-- The line has no normal form. -/
  | notNormal {fault : BlockFault α} (hn : normalize raw = .error fault) :
    Exit s raw [] ⟨s.machine, none, s.blocks⟩ ⟨none, .error fault⟩
  /-- There is no command. -/
  | empty {b : NormalBlock} (hn : normalize (α := α) raw = .ok b) (he : b.isEmpty = true) :
    Exit s raw [] ⟨s.machine, none, s.blocks⟩ ⟨b.message, .ok .ok⟩
  /-- The command asks to leave the interpreter. -/
  | quit {b : NormalBlock} (hn : normalize (α := α) raw = .ok b) (hq : b.isQuit = true) :
    Exit s raw [] ⟨s.machine, none, s.blocks⟩ ⟨b.message, .ok .quit⟩
  /-- The command is no block. -/
  | notBlock {b : NormalBlock} {fault : BlockFault α} (hn : normalize (α := α) raw = .ok b)
    (hb : b.IsCommand) (hp : s.proposal b.command = .error fault) :
    Exit s raw [.beginBlock] ⟨Machine.beginBlock s.machine, none, s.blocks⟩
      ⟨b.message, .error fault⟩
  /-- A call of the block is refused. -/
  | refused {b : NormalBlock} {p : Proposal α} {fault : MachineFault α}
    (hn : normalize (α := α) raw = .ok b) (hb : b.IsCommand) (hp : s.proposal b.command = .ok p)
    (hr : (s.performed p).2 = some fault) :
    Exit s raw (.beginBlock :: (Machine.made (Machine.beginBlock s.machine) p.plan).map .call)
      ⟨(s.performed p).1, none, s.blocks⟩ ⟨b.message, .error (.machine fault)⟩
  /-- The block is executed. -/
  | executed {b : NormalBlock} {p : Proposal α} (hn : normalize (α := α) raw = .ok b)
    (hb : b.IsCommand) (hp : s.proposal b.command = .ok p) (hr : (s.performed p).2 = none) :
    Exit s raw (.beginBlock :: (Machine.made (Machine.beginBlock s.machine) p.plan).map .call)
      ⟨(s.performed p).1, p.changes.programFlow, s.blocks + 1⟩ ⟨b.message, .ok .ok⟩

/-- **Every line takes one of the six exits**, and a record that is kept of it shows what
the machine is asked for on the way. -/
theorem exit_step (s : Session σ) (raw : List Char) :
    ∃ requests : List (Request α),
      (s.withRecord []).step raw = ((s.step raw).1.withRecord requests, (s.step raw).2) ∧
      Exit s raw requests (s.step raw).1 (s.step raw).2 := by
  cases hn : normalize (α := α) raw with
  | error fault =>
    rw [step_of_notNormal hn, step_of_notNormal hn]
    exact ⟨[], rfl, .notNormal hn⟩
  | ok b =>
    -- the line has a normal form; what is left is whether it has a command
    cases he : b.isEmpty with
    | true =>
      rw [step_of_isEmpty hn he, step_of_isEmpty hn he]
      exact ⟨[], rfl, .empty hn he⟩
    | false =>
      cases hq : b.isQuit with
      | true =>
        rw [step_of_isQuit hn hq, step_of_isQuit hn hq]
        exact ⟨[], rfl, .quit hn hq⟩
      | false =>
        have hb : b.IsCommand := ⟨he, hq⟩
        rw [step_of_isCommand hn hb, step_of_isCommand hn hb]
        -- the session with a record reads the same command in the same way
        have hrec := proposal_withRecord s ([] : List (Request α)) b.command
        cases hp : s.proposal b.command with
        | error fault =>
          rw [runCommand_of_fault hp, runCommand_of_fault (hrec.trans hp)]
          exact ⟨[.beginBlock], rfl, .notBlock hn hb hp⟩
        | ok p =>
          have ht := performed_withRecord s p
          cases hr : (s.performed p).2 with
          | some fault =>
            have hrt := (congrArg Prod.snd ht).trans hr
            rw [runCommand_of_refused hp hr, runCommand_of_refused (hrec.trans hp) hrt, ht]
            exact ⟨_, rfl, .refused hn hb hp hr⟩
          | none =>
            have hrt := (congrArg Prod.snd ht).trans hr
            rw [runCommand_of_performed hp hr, runCommand_of_performed (hrec.trans hp) hrt, ht]
            exact ⟨_, rfl, .executed hn hb hp hr⟩

/-! ### Blocks -/

/-- A line is a block: all of it is in normal form, all of its command is words, and each
word has a meaning.  The proposal is what the words make of what the machine carries
once the block has begun. -/
def IsBlock (s : Session σ) (raw : List Char) (p : Proposal α) : Prop :=
  ∃ b ws, normalize (α := α) raw = .ok b ∧ b.IsCommand ∧
    (WordReader.ofText b.command).words = .ok ws ∧
    ws.foldlM Proposal.apply (Proposal.ofMachine (Machine.beginBlock s.machine)) = .ok p

/-- A line is a block, and no call of it is refused. -/
def Executes (s : Session σ) (raw : List Char) (p : Proposal α) : Prop :=
  s.IsBlock raw p ∧ Machine.AcceptsAll (Machine.beginBlock s.machine) p.plan

theorem proposal_eq_ok_iff (s : Session σ) (command : List Char) (p : Proposal α) :
    s.proposal command = .ok p ↔ ∃ ws, (WordReader.ofText command).words = .ok ws ∧
      ws.foldlM Proposal.apply (Proposal.ofMachine (Machine.beginBlock s.machine)) = .ok p :=
  Proposal.applyAll_eq_ok_iff _ _ _

/-- The proposal of a line is known from its command. -/
theorem isBlock_iff (s : Session σ) {raw : List Char} {b : NormalBlock} (p : Proposal α)
    (hn : normalize (α := α) raw = .ok b) :
    s.IsBlock raw p ↔ b.IsCommand ∧ s.proposal b.command = .ok p := by
  rw [proposal_eq_ok_iff]
  constructor
  · rintro ⟨b', ws, hn', hb, hws, hp⟩
    obtain rfl : b = b' := Except.ok.inj (hn.symm.trans hn')
    exact ⟨hb, ws, hws, hp⟩
  · rintro ⟨hb, ws, hws, hp⟩
    exact ⟨b, ws, hn, hb, hws, hp⟩

/-- How a block ends whose calls end with a fault, or without one. -/
def ended : Option (MachineFault α) → Except (BlockFault α) Completion
  | none => .ok .ok
  | some fault => .error (.machine fault)

/-- A block leaves the machine as its calls do. -/
theorem machine_of_isBlock {s : Session σ} {raw : List Char} {p : Proposal α}
    (h : s.IsBlock raw p) : (s.step raw).1.machine = (s.performed p).1 := by
  obtain ⟨b, -, hn, -⟩ := id h
  obtain ⟨hb, hp⟩ := (isBlock_iff s p hn).mp h
  rw [step_of_isCommand hn hb]
  cases hr : (s.performed p).2 with
  | none => rw [runCommand_of_performed hp hr]
  | some fault => rw [runCommand_of_refused hp hr]

/-- A block ends as its calls do. -/
theorem result_of_isBlock {s : Session σ} {raw : List Char} {p : Proposal α}
    (h : s.IsBlock raw p) : (s.step raw).2.result = ended (s.performed p).2 := by
  obtain ⟨b, -, hn, -⟩ := id h
  obtain ⟨hb, hp⟩ := (isBlock_iff s p hn).mp h
  rw [step_of_isCommand hn hb]
  cases hr : (s.performed p).2 with
  | none =>
    rw [runCommand_of_performed hp hr]
    rfl
  | some fault =>
    rw [runCommand_of_refused hp hr]
    rfl

theorem not_isBlock_of_notNormal (s : Session σ) {raw : List Char} {fault : BlockFault α}
    (p : Proposal α) (hn : normalize raw = .error fault) : ¬ s.IsBlock raw p := by
  rintro ⟨b, ws, hn', -⟩
  exact absurd (hn.symm.trans hn') (by simp)

namespace Exit

variable {s s' : Session σ} {raw : List Char} {requests : List (Request α)}
  {report : LineReport α}

/-- A call is one of the plan of a whole block. -/
theorem isBlock_of_call (h : Exit s raw requests s' report) {c : Call α}
    (hc : .call c ∈ requests) : ∃ p, s.IsBlock raw p ∧ c ∈ p.plan := by
  have hmade {p : Proposal α} (hc : Request.call c ∈
      Request.beginBlock :: (Machine.made (Machine.beginBlock s.machine) p.plan).map .call) :
      c ∈ p.plan := by
    have hc' : c ∈ Machine.made (Machine.beginBlock s.machine) p.plan := by simpa using hc
    exact (Machine.made_isPrefix _ _).subset hc'
  cases h with
  | notNormal | empty | quit | notBlock => simp at hc
  | refused hn hb hp hr | executed hn hb hp hr =>
    exact ⟨_, (isBlock_iff s _ hn).mpr ⟨hb, hp⟩, hmade hc⟩

/-- A fault of the text leaves the machine alone, apart from the beginning of a block. -/
theorem requests_of_ofText (h : Exit s raw requests s' report) {fault : BlockFault α}
    (hfault : report.result = .error fault) (htext : fault.OfText) :
    requests = [] ∧ s'.machine = s.machine ∨
      requests = [.beginBlock] ∧ s'.machine = Machine.beginBlock s.machine := by
  cases h with
  | notNormal => exact .inl ⟨rfl, rfl⟩
  | notBlock => exact .inr ⟨rfl, rfl⟩
  | empty | quit | executed => exact absurd hfault (by simp)
  | refused =>
    -- the fault of a refused call is not one of the text
    rw [← Except.error.inj hfault] at htext
    exact htext.elim

/-- A line that fails does so at its text exactly if it is no block. -/
theorem ofText_iff (h : Exit s raw requests s' report) {fault : BlockFault α}
    (hfault : report.result = .error fault) : fault.OfText ↔ ∀ p, ¬ s.IsBlock raw p := by
  cases h with
  | empty | quit | executed => exact absurd hfault (by simp)
  | notNormal hn =>
    rw [← Except.error.inj hfault]
    exact iff_of_true (ofText_of_normalize hn) fun p => not_isBlock_of_notNormal s p hn
  | notBlock hn hb hp =>
    rw [← Except.error.inj hfault]
    refine iff_of_true (Proposal.ofText_of_applyAll hp) fun p hblock => ?_
    have hok := ((isBlock_iff s p hn).mp hblock).2
    exact absurd (hp.symm.trans hok) (by simp)
  | refused hn hb hp hr =>
    rw [← Except.error.inj hfault]
    exact iff_of_false id fun hno => hno _ ((isBlock_iff s _ hn).mpr ⟨hb, hp⟩)

/-- Without a command the machine is asked for nothing. -/
theorem requests_of_not_isCommand (h : Exit s raw requests s' report)
    (hb : ∀ b, normalize (α := α) raw = .ok b → ¬ b.IsCommand) :
    requests = [] ∧ s'.machine = s.machine := by
  cases h with
  | notNormal | empty | quit => exact ⟨rfl, rfl⟩
  | notBlock hn hb' | refused hn hb' | executed hn hb' => exact absurd hb' (hb _ hn)

/-- A command begins one block, before anything else. -/
theorem requests_of_isCommand (h : Exit s raw requests s' report) {b : NormalBlock}
    (hn : normalize (α := α) raw = .ok b) (hb : b.IsCommand) :
    ∃ calls : List (Call α), requests = .beginBlock :: calls.map .call := by
  cases h with
  | notNormal hn' => exact absurd (hn.symm.trans hn') (by simp)
  | empty hn' he =>
    obtain rfl := Except.ok.inj (hn.symm.trans hn')
    exact absurd hb.1 (by simp [he])
  | quit hn' hq =>
    obtain rfl := Except.ok.inj (hn.symm.trans hn')
    exact absurd hb.2 (by simp [hq])
  | notBlock => exact ⟨[], rfl⟩
  | refused | executed => exact ⟨_, rfl⟩

/-- A line that is no block leaves the machine alone, apart from the beginning of a block. -/
theorem machine_of_not_isBlock (h : Exit s raw requests s' report)
    (hno : ∀ p, ¬ s.IsBlock raw p) :
    s'.machine = s.machine ∨ s'.machine = Machine.beginBlock s.machine := by
  cases h with
  | notNormal | empty | quit => exact .inl rfl
  | notBlock => exact .inr rfl
  | refused hn hb hp | executed hn hb hp =>
    exact absurd ((isBlock_iff s _ hn).mpr ⟨hb, hp⟩) (hno _)

/-- A block begins, and then asks for the calls of its plan that are made. -/
theorem requests_of_isBlock (h : Exit s raw requests s' report) {p : Proposal α}
    (hp : s.IsBlock raw p) :
    requests = .beginBlock :: (Machine.made (Machine.beginBlock s.machine) p.plan).map .call := by
  cases h with
  | notNormal hn => exact absurd hp (not_isBlock_of_notNormal s p hn)
  | empty hn he =>
    have hb := ((isBlock_iff s p hn).mp hp).1.1
    exact absurd hb (by simp [he])
  | quit hn hq =>
    have hb := ((isBlock_iff s p hn).mp hp).1.2
    exact absurd hb (by simp [hq])
  | notBlock hn hb hp' =>
    have hok := ((isBlock_iff s p hn).mp hp).2
    exact absurd (hp'.symm.trans hok) (by simp)
  | refused hn hb hp' | executed hn hb hp' =>
    obtain rfl := Except.ok.inj (hp'.symm.trans ((isBlock_iff s p hn).mp hp).2)
    rfl

/-- The message is that of the normal form. -/
theorem message_eq (h : Exit s raw requests s' report) :
    report.message = (normalize (α := α) raw).toOption.bind NormalBlock.message := by
  cases h with
  | notNormal hn | empty hn | quit hn | notBlock hn | refused hn | executed hn =>
    rw [hn]
    rfl

/-- A line that is executed counts, and what it asks of the program is known. -/
theorem of_executes (h : Exit s raw requests s' report) {p : Proposal α}
    (hp : s.Executes raw p) : s'.blocks = s.blocks + 1 ∧ s'.flow = p.changes.programFlow := by
  obtain ⟨hblock, hacc⟩ := hp
  have hnone := (Machine.snd_run_eq_none_iff _ _).mpr hacc
  -- each exit but the last contradicts a part of what it is to be executed
  cases h with
  | notNormal hn => exact absurd hblock (not_isBlock_of_notNormal s p hn)
  | empty hn he =>
    have hb := ((isBlock_iff s p hn).mp hblock).1.1
    exact absurd hb (by simp [he])
  | quit hn hq =>
    have hb := ((isBlock_iff s p hn).mp hblock).1.2
    exact absurd hb (by simp [hq])
  | notBlock hn hb hp' =>
    have hp := ((isBlock_iff s p hn).mp hblock).2
    exact absurd (hp'.symm.trans hp) (by simp)
  | refused hn hb hp' hr =>
    obtain rfl := Except.ok.inj (hp'.symm.trans ((isBlock_iff s p hn).mp hblock).2)
    exact absurd (hr.symm.trans hnone) (by simp)
  | executed hn hb hp' hr =>
    obtain rfl := Except.ok.inj (hp'.symm.trans ((isBlock_iff s p hn).mp hblock).2)
    exact ⟨rfl, rfl⟩

/-- A line that is not executed does not count, and leaves no trace of what earlier lines
asked of the program. -/
theorem of_not_executes (h : Exit s raw requests s' report)
    (hp : ∀ p, ¬ s.Executes raw p) : s'.blocks = s.blocks ∧ s'.flow = none := by
  cases h with
  | notNormal | empty | quit | notBlock | refused => exact ⟨rfl, rfl⟩
  | executed hn hb hp' hr =>
    refine absurd ⟨(isBlock_iff s _ hn).mpr ⟨hb, hp'⟩, ?_⟩ (hp _)
    exact (Machine.snd_run_eq_none_iff _ _).mp hr

end Exit

/-! ### The contract of a line -/

/-- The simulated machine begins a block without a change to its state or its journal. -/
theorem state_of_ofText (s : Session (Simulator α)) (raw : List Char) {fault : BlockFault α}
    (hfault : (s.step raw).2.result = .error fault) (htext : fault.OfText) :
    (s.step raw).1.machine.state = s.machine.state ∧
      (s.step raw).1.machine.journal = s.machine.journal := by
  obtain ⟨requests, -, hexit⟩ := exit_step s raw
  rcases hexit.requests_of_ofText hfault htext with ⟨-, hm⟩ | ⟨-, hm⟩ <;>
    rw [hm] <;> exact ⟨rfl, rfl⟩

/-- **A machine is asked for calls only if the whole line is a block.**

A machine that keeps a record behaves like the one inside, and the record shows the
following.  Each call is one of the plan of a block that takes in the whole line.  A
line that fails and is no block has a fault of its text, and with such a fault there is
no call.  A line without a command asks for nothing,
and any other begins one block before anything else.  The message of the line is
delivered if the line has a normal form, whatever comes of its command.  A line counts,
and what it asks of the program is known, if it is executed, and only then. -/
theorem step_asks_for_whole_blocks_only (s : Session σ) (raw : List Char) :
    ∃ requests : List (Request α),
      (s.withRecord []).step raw = ((s.step raw).1.withRecord requests, (s.step raw).2) ∧
      (∀ c, .call c ∈ requests → ∃ p, s.IsBlock raw p ∧ c ∈ p.plan) ∧
      (∀ fault, (s.step raw).2.result = .error fault →
        (fault.OfText ↔ ∀ p, ¬ s.IsBlock raw p)) ∧
      (∀ fault, (s.step raw).2.result = .error fault → fault.OfText →
        (∀ c, .call c ∉ requests) ∧
          ((s.step raw).1.machine = s.machine ∨
            (s.step raw).1.machine = Machine.beginBlock s.machine)) ∧
      (∀ (t : Session (Simulator α)) (fault : BlockFault α),
        (t.step raw).2.result = .error fault → fault.OfText →
          (t.step raw).1.machine.state = t.machine.state ∧
            (t.step raw).1.machine.journal = t.machine.journal) ∧
      ((∀ b, normalize (α := α) raw = .ok b → ¬ b.IsCommand) →
        requests = [] ∧ (s.step raw).1.machine = s.machine) ∧
      (∀ b, normalize (α := α) raw = .ok b → b.IsCommand →
        ∃ calls : List (Call α), requests = .beginBlock :: calls.map .call) ∧
      (s.step raw).2.message = (normalize (α := α) raw).toOption.bind NormalBlock.message ∧
      (∀ p, s.Executes raw p →
        (s.step raw).1.blocks = s.blocks + 1 ∧ (s.step raw).1.flow = p.changes.programFlow) ∧
      ((∀ p, ¬ s.Executes raw p) →
        (s.step raw).1.blocks = s.blocks ∧ (s.step raw).1.flow = none) := by
  obtain ⟨requests, hrecord, hexit⟩ := exit_step s raw
  refine ⟨requests, hrecord, fun c => hexit.isBlock_of_call, fun fault => hexit.ofText_iff, ?_,
    fun t fault => state_of_ofText t raw, hexit.requests_of_not_isCommand,
    fun b => hexit.requests_of_isCommand, hexit.message_eq, fun p => hexit.of_executes,
    hexit.of_not_executes⟩
  intro fault hfault htext
  rcases hexit.requests_of_ofText hfault htext with ⟨rfl, hm⟩ | ⟨rfl, hm⟩
  · exact ⟨by simp, .inl hm⟩
  · exact ⟨by simp, .inr hm⟩

end Session

end NumericControl
