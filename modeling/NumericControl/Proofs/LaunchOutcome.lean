import NumericControl.Launch
import NumericControl.Proofs.Lines
import NumericControl.Proofs.RunAccount
import NumericControl.Proofs.StateStore

/-!
# What the program leaves behind

The program reads its settings, the state of the machine and its input before it changes a
file, and the one file it changes is the state file, at the end of a run whose input could be
read.  So there are three ways for it to end.  It gives up, with status two, and leaves all
files as they were.  It is asked for its settings only, and then it does not even look at the
state file.  Or the run comes to its end: then the state file holds the state of the machine,
also if lines failed, and the status says whether one did.

The lines that a run goes through are told without the run: they are the first lines of the
input, up to the first that is a stop.  A line that is not UTF-8 is reached if it stands behind
lines none of which is a stop.

## Main definitions

* `Options.startState`, `Options.programBytes` — the state to start from, and the program.
* `Session.ReachesUnreadable`, `Session.GoesThrough` — the line of an input that a run cannot
  read, and the lines that it goes through.
* `Options.GivesUp` — what keeps the program from coming to an end.
* `Outcome.Concludes` — how the program ends behind a run.

## Main results

* `Run.snd_toEnd_eq_some_iff` — the line that cannot be read and is reached.
* `entry_of_saveState` — what a state file holds that was saved.
* `simulate_concludes` — a run that comes to its end is saved.
* `launch_leaves` — **the ways in which the program ends**.
-/

namespace NumericControl

/-! ### What a command line names -/

namespace Options

/-- The state that the machine starts from: the one in the state file, if there is one. -/
def startState (o : Options) (settings : Settings) (t : FileTree) :
    Except StateFault (State Binary64) :=
  match o.statePath? settings with
  | none => .ok .initial
  | some path => (loadState t path).map fun stored => stored.state?.getD .initial

/-- The bytes of the program, from its file or from standard input. -/
def programBytes (o : Options) (t : FileTree) (stdin : List UInt8) :
    Except PathFault (List UInt8) :=
  match o.program with
  | none => .ok stdin
  | some path => t.read path

end Options

/-- The session in which a program starts. -/
def Settings.session (settings : Settings) (start : State Binary64) :
    Session (Simulator Binary64) :=
  .ofMachine (.ofState settings.machine.limits start)

/-! ### Lines that a run goes through -/

namespace Session

variable {σ α : Type} [Number α] [Machine σ α]

/-- A run comes to a line of its input that is not UTF-8: all lines before it can be read, and
none of them is a stop. -/
def ReachesUnreadable (s : Session σ) (input : List InputLine) : Prop :=
  ∃ lines rest, input = lines.map .ok ++ .error .notUtf8 :: rest ∧
    ∀ v ∈ s.visits 1 lines, v.stop? = none

/-- The lines of its input that a run goes through: the first ones, up to the first that is a
stop, or all of them. -/
structure GoesThrough (s : Session σ) (lines : List (List Char)) (input : List InputLine) :
    Prop where
  isPrefix : lines.map .ok <+: input
  goesOn : ∀ v ∈ (s.visits 1 lines).dropLast, v.stop? = none
  ends : lines.map .ok = input ∨ ∃ v, (s.visits 1 lines).getLast? = some v ∧ v.stop? ≠ none

end Session

namespace Run

variable {σ α : Type} [Number α] [Machine σ α]

/-- A line stops a run that goes on if it is a stop. -/
theorem stop_step {r : Run σ α} (hstop : r.summary.stop = none) (line : List Char) :
    (r.step line).summary.stop = (r.session.visit (r.summary.lines + 1) line).stop? := by
  rw [step_visit, hstop]
  exact Option.or_none

/-- **A run ends with a fault of its input** exactly if it comes to the line with the fault: the
lines before it can be read, and none of them is a stop. -/
theorem snd_toEnd_eq_some_iff {r : Run σ α} (hstop : r.summary.stop = none)
    (input : List InputLine) (fault : InputFault) :
    (r.toEnd input).2 = some fault ↔
      ∃ lines rest, input = lines.map .ok ++ .error fault :: rest ∧
        ∀ v ∈ r.session.visits (r.summary.lines + 1) lines, v.stop? = none := by
  induction input generalizing r with
  | nil => simp [toEnd]
  | cons input rest ih =>
    cases input with
    | error fault' =>
      rw [toEnd, Option.some.injEq]
      constructor
      · rintro rfl
        exact ⟨[], rest, rfl, by simp [Session.visits]⟩
      · rintro ⟨lines, rest', heq, -⟩
        cases lines with
        | nil => exact Except.error.inj (List.cons.inj heq).1
        | cons line lines => exact absurd (List.cons.inj heq).1 (by simp)
    | ok line =>
      have hline := stop_step hstop line
      cases hstep : (r.step line).summary.stop with
      | some stop =>
        rw [toEnd_cons_of_stops rest hstep]
        refine iff_of_false (by simp) ?_
        rintro ⟨lines, rest', heq, hgoesOn⟩
        cases lines with
        | nil => exact absurd (List.cons.inj heq).1 (by simp)
        | cons line' lines =>
          obtain rfl : line = line' := Except.ok.inj (List.cons.inj heq).1
          have hfirst := hgoesOn _ List.mem_cons_self
          rw [← hline, hstep] at hfirst
          exact absurd hfirst (by simp)
      | none =>
        have hsession : (r.step line).session = (r.session.step line).1 := session_step r line
        have hcount : (r.step line).summary.lines = r.summary.lines + 1 := by rw [step_visit]
        rw [toEnd_cons_of_goesOn rest hstep, ih hstep, hsession, hcount]
        constructor
        · rintro ⟨lines, rest', rfl, hgoesOn⟩
          refine ⟨line :: lines, rest', rfl, ?_⟩
          rw [Session.visits]
          exact List.forall_mem_cons.mpr ⟨hline.symm.trans hstep, hgoesOn⟩
        · rintro ⟨lines, rest', heq, hgoesOn⟩
          cases lines with
          | nil => exact absurd (List.cons.inj heq).1 (by simp)
          | cons line' lines =>
            obtain ⟨hhead, rfl⟩ := List.cons.inj heq
            obtain rfl : line = line' := Except.ok.inj hhead
            rw [Session.visits] at hgoesOn
            exact ⟨lines, rest', rfl, (List.forall_mem_cons.mp hgoesOn).2⟩

/-- The only fault of a line of bytes is that it is not UTF-8. -/
theorem eq_notUtf8_of_mem_inputLines {program : List UInt8} {fault : InputFault}
    (h : .error fault ∈ inputLines program) : fault = .notUtf8 := by
  obtain ⟨bytes, -, hbytes⟩ := List.mem_map.mp h
  unfold InputLine.ofBytes at hbytes
  split at hbytes
  · exact absurd hbytes (by simp)
  · exact (Except.error.inj hbytes).symm

/-- The run of a program ends with a fault exactly if it comes to a line that is not UTF-8. -/
theorem snd_ofBytes_eq_none_iff (s : Session σ) (program : List UInt8) :
    (ofBytes s program : Run σ α × Option InputFault).2 = none ↔
      ¬ s.ReachesUnreadable (inputLines program) := by
  have hiff := snd_toEnd_eq_some_iff (r := ({ session := s } : Run σ α)) rfl (inputLines program)
  constructor
  · intro hnone hreaches
    rw [ofBytes, (hiff _).mpr hreaches] at hnone
    exact absurd hnone (by simp)
  · intro hreaches
    cases h : (ofBytes s program : Run σ α × Option InputFault).2 with
    | none => rfl
    | some fault =>
      obtain ⟨lines, rest, heq, hgoesOn⟩ := (hiff fault).mp h
      have hmem : .error fault ∈ inputLines program := by simp [heq]
      obtain rfl := eq_notUtf8_of_mem_inputLines hmem
      exact absurd ⟨lines, rest, heq, hgoesOn⟩ hreaches

/-- A run without a fault goes through lines and accounts for them. -/
theorem exists_goesThrough {s : Session σ} {program : List UInt8}
    (hread : (ofBytes s program : Run σ α × Option InputFault).2 = none) :
    ∃ lines, s.GoesThrough lines (inputLines program) ∧ Accounts s lines (ofBytes s program).1 := by
  obtain ⟨lines, hfirst, haccounts, hall⟩ := (Accounts.nil s).toEnd rfl (inputLines program)
  rw [List.nil_append] at haccounts
  refine ⟨lines, ⟨hfirst, haccounts.goesOn, ?_⟩, haccounts⟩
  cases hstop : (toEnd { session := s } (inputLines program)).1.summary.stop with
  | none => exact .inl (hall hread hstop)
  | some stop =>
    obtain ⟨v, hv, hstop⟩ := Option.bind_eq_some_iff.mp (haccounts.stop.symm.trans hstop)
    exact .inr ⟨v, hv, by rw [hstop]; simp⟩

/-- A run is clean if all of its lines succeeded. -/
theorem Accounts.isClean_eq {s : Session σ} {lines : List (List Char)} {r : Run σ α}
    (h : Accounts s lines r) : r.summary.isClean = (s.visits 1 lines).all Visit.succeeds := by
  have hvisit (v : Visit σ α) : v.failure? = none ↔ v.succeeds = true := by
    unfold Visit.failure? Visit.succeeds
    cases v.report.result <;> simp [Except.isOk, Except.toBool]
  rw [Bool.eq_iff_iff, Summary.isClean, h.failures, List.isEmpty_iff, List.filterMap_eq_nil_iff,
    List.all_eq_true]
  exact forall₂_congr fun v _ => hvisit v

end Run

/-! ### The input -/

/-- A file is read where a file stands. -/
theorem FileTree.read_eq (t : FileTree) (path : List Char) :
    t.read path =
      match t.entry path with
      | .error fault => .error fault
      | .ok .directory => .error .isDirectory
      | .ok (.file bytes) => .ok bytes := by
  rw [read]
  rcases t.entry path with fault | (bytes | _) <;> rfl

/-- A program file that cannot be read gives no lines, or nothing but a fault. -/
theorem openInput_of_error {o : Options} {t : FileTree} {stdin : List UInt8} {fault : PathFault}
    (h : o.programBytes t stdin = .error fault) :
    openInput t o.program stdin = .error fault ∨
      openInput t o.program stdin = .ok [.error .isDirectory] := by
  unfold Options.programBytes at h
  unfold openInput
  cases hprogram : o.program with
  | none =>
    rw [hprogram] at h
    exact absurd h (by simp)
  | some path =>
    rw [hprogram] at h
    dsimp only at h ⊢
    rw [FileTree.read_eq] at h
    rcases hentry : t.entry path with fault' | (bytes | _)
    · rw [hentry] at h
      exact .inl (congrArg Except.error (Except.error.inj h))
    · rw [hentry] at h
      exact absurd h (by simp)
    · exact .inr rfl

/-- A program that can be read gives its lines. -/
theorem openInput_of_ok {o : Options} {t : FileTree} {stdin program : List UInt8}
    (h : o.programBytes t stdin = .ok program) :
    openInput t o.program stdin = .ok (inputLines program) := by
  unfold Options.programBytes at h
  unfold openInput
  cases hprogram : o.program with
  | none =>
    rw [hprogram] at h
    rw [Except.ok.inj h]
  | some path =>
    rw [hprogram] at h
    dsimp only at h ⊢
    rw [FileTree.read_eq] at h
    rcases hentry : t.entry path with fault | (bytes | _)
    · rw [hentry] at h
      exact absurd h (by simp)
    · rw [hentry] at h
      exact congrArg (fun bytes => Except.ok (inputLines bytes)) (Except.ok.inj h)
    · rw [hentry] at h
      exact absurd h (by simp)

/-! ### A run of the program -/

section

variable {options : Options} {settings : Settings} {t : FileTree} {stdin : List UInt8}
  {now : UInt64}

/-- How the program ends behind a run: with the final state in the state file, if there is one
and it can be written, and with that state printed, if that is asked for. -/
structure Outcome.Concludes (o : Outcome) (options : Options) (settings : Settings) (t : FileTree)
    (now : UInt64) (final : State Binary64) (clean : Bool) : Prop where
  unsaved : options.statePath? settings = none → o.tree = t ∧ o.exit = if clean then 0 else 1
  saved : ∀ path, options.statePath? settings = some path →
    (saveState t path final now).2 = none →
      o.tree.entry path = .ok (.file (StateRecord.ofState final now).encode) ∧
        o.exit = if clean then 0 else 1
  notSaved : ∀ path fault, options.statePath? settings = some path →
    (saveState t path final now).2 = some fault → o.exit = 2
  dumped : options.dumpState = true → o.exit ≠ 2 →
    ∃ before, o.output = before ++ final.toJson.pretty ++ "\n"

/-- Without an input the program gives up. -/
theorem simulate_of_openInput_error {fault : PathFault} {statePath : Option (List Char)}
    {state : Option (State Binary64)} {log : List Event}
    (hopen : openInput t options.program stdin = .error fault) :
    (simulate options settings t stdin now statePath state log).exit = 2 ∧
      (simulate options settings t stdin now statePath state log).tree = t := by
  simp only [simulate, hopen, and_self]

/-- With an input that cannot be read to its end the program gives up. -/
theorem simulate_of_fault {lines : List InputLine} {fault : InputFault}
    {statePath : Option (List Char)} {state : Option (State Binary64)} {log : List Event}
    (hopen : openInput t options.program stdin = .ok lines)
    (hrun : (Run.toEnd { session := settings.session (state.getD .initial) } lines).2 =
      some fault) :
    (simulate options settings t stdin now statePath state log).exit = 2 ∧
      (simulate options settings t stdin now statePath state log).tree = t := by
  rw [Settings.session] at hrun
  simp only [simulate, hopen, hrun, and_self]

/-- **A run that comes to its end is saved.** -/
theorem simulate_concludes {lines : List InputLine} {state : Option (State Binary64)}
    {log : List Event} {r : Run (Simulator Binary64) Binary64}
    (hopen : openInput t options.program stdin = .ok lines)
    (hrun : Run.toEnd { session := settings.session (state.getD .initial) } lines = (r, none)) :
    (simulate options settings t stdin now (options.statePath? settings) state log).Concludes
      options settings t now r.session.machine.state r.summary.isClean := by
  rw [Settings.session] at hrun
  have hdump (before : String) (hdumps : options.dumpState = true) :
      ∃ before', before ++ (if options.dumpState then
        r.session.machine.state.toJson.pretty ++ "\n" else "") =
          before' ++ r.session.machine.state.toJson.pretty ++ "\n" :=
    ⟨before, by rw [if_pos hdumps, String.append_assoc]⟩
  cases hpath : options.statePath? settings with
  | none =>
    have hno (path : List Char) : options.statePath? settings ≠ some path := by simp [hpath]
    simp only [simulate, hopen, hrun]
    exact ⟨fun _ => ⟨rfl, rfl⟩, fun path h => absurd h (hno path),
      fun path _ h => absurd h (hno path), fun hdumps _ => hdump _ hdumps⟩
  | some path =>
    have hno : options.statePath? settings ≠ none := by simp [hpath]
    have hsame {path' : List Char} (h : options.statePath? settings = some path') : path = path' :=
      Option.some.inj (hpath.symm.trans h)
    rcases hsave : saveState t path r.session.machine.state now with ⟨t', _ | fault⟩
    · have hentry := entry_of_saveState (congrArg Prod.snd hsave)
      rw [hsave] at hentry
      simp only [simulate, hopen, hrun, hsave]
      refine ⟨fun h => absurd h hno, fun path' h _ => ?_, fun path' fault h hfault => ?_,
        fun hdumps _ => hdump _ hdumps⟩
      · rw [← hsame h]
        exact ⟨hentry, rfl⟩
      · rw [← hsame h, hsave] at hfault
        exact absurd hfault (by simp)
    · simp only [simulate, hopen, hrun, hsave]
      refine ⟨fun h => absurd h hno, fun path' h hnone => ?_, fun _ _ _ _ => rfl,
        fun _ hexit => absurd rfl hexit⟩
      rw [← hsame h, hsave] at hnone
      exact absurd hnone (by simp)

/-- What keeps a program with settings from coming to an end: the state file holds no state,
the program file cannot be read, or the run comes to a line that is not UTF-8. -/
inductive Options.GivesUp (o : Options) (settings : Settings) (t : FileTree)
    (stdin : List UInt8) : Prop
  | state {path : List Char} {fault : StateFault} (hpath : o.statePath? settings = some path)
    (hload : loadState t path = .error fault)
  | program {path : List Char} {fault : PathFault} (hpath : o.program = some path)
    (hread : t.read path = .error fault)
  | line {start : State Binary64} {program : List UInt8}
    (hstart : o.startState settings t = .ok start) (hprogram : o.programBytes t stdin = .ok program)
    (hline : (settings.session start).ReachesUnreadable (inputLines program))

/-- A state file that holds no state is looked at before anything else. -/
theorem runWith_of_loadState_error {path : List Char} {fault : StateFault}
    (hpath : options.statePath? settings = some path) (hload : loadState t path = .error fault) :
    (runWith options settings t stdin now).exit = 2 ∧
      (runWith options settings t stdin now).tree = t := by
  simp only [runWith, hpath, hload, and_self]

/-- With a state to start from the program is run from it. -/
theorem exists_runWith_eq_simulate (stdin : List UInt8) (now : UInt64) {start : State Binary64}
    (hstart : options.startState settings t = .ok start) :
    ∃ (state : Option (State Binary64)) (log : List Event), state.getD .initial = start ∧
      runWith options settings t stdin now =
        simulate options settings t stdin now (options.statePath? settings) state log := by
  unfold Options.startState at hstart
  unfold runWith
  cases hpath : options.statePath? settings with
  | none =>
    rw [hpath] at hstart
    exact ⟨none, _, Except.ok.inj hstart, rfl⟩
  | some path =>
    rw [hpath] at hstart
    dsimp only at hstart ⊢
    cases hload : loadState t path with
    | error fault =>
      rw [hload] at hstart
      exact absurd hstart (by simp [Except.map])
    | ok stored =>
      rw [hload] at hstart
      exact ⟨stored.state?, _, Except.ok.inj hstart, rfl⟩

theorem exists_loadState_eq_error {fault : StateFault}
    (hstart : options.startState settings t = .error fault) :
    ∃ path, options.statePath? settings = some path ∧ loadState t path = .error fault := by
  unfold Options.startState at hstart
  cases hpath : options.statePath? settings with
  | none =>
    rw [hpath] at hstart
    exact absurd hstart (by simp)
  | some path =>
    rw [hpath] at hstart
    dsimp only at hstart
    cases hload : loadState t path with
    | error fault' =>
      rw [hload] at hstart
      exact ⟨path, rfl, hload.trans (congrArg Except.error (Except.error.inj hstart))⟩
    | ok stored =>
      rw [hload] at hstart
      exact absurd hstart (by simp [Except.map])

/-- A program that gives up leaves all files as they were. -/
theorem runWith_of_givesUp (h : options.GivesUp settings t stdin) :
    (runWith options settings t stdin now).exit = 2 ∧
      (runWith options settings t stdin now).tree = t := by
  cases hstart : options.startState settings t with
  | error fault =>
    obtain ⟨path, hpath, hload⟩ := exists_loadState_eq_error hstart
    exact runWith_of_loadState_error hpath hload
  | ok start =>
    cases h with
    | state hpath hload => exact runWith_of_loadState_error hpath hload
    | @program path fault hpath hread =>
      obtain ⟨state, log, -, hrun⟩ := exists_runWith_eq_simulate stdin now hstart
      have hprogram : options.programBytes t stdin = .error fault := by
        rw [Options.programBytes, hpath]
        exact hread
      rw [hrun]
      rcases openInput_of_error hprogram with hopen | hopen
      · exact simulate_of_openInput_error hopen
      · exact simulate_of_fault hopen rfl
    | @line start program hstart hprogram hline =>
      obtain ⟨state, log, rfl, hrun⟩ := exists_runWith_eq_simulate stdin now hstart
      rw [hrun]
      exact simulate_of_fault (openInput_of_ok hprogram)
        ((Run.snd_toEnd_eq_some_iff rfl _ _).mpr hline)

/-- A program that does not give up goes through lines, and its run is saved. -/
theorem runWith_of_not_givesUp (now : UInt64) (h : ¬ options.GivesUp settings t stdin) :
    ∃ start program lines, options.startState settings t = .ok start ∧
      options.programBytes t stdin = .ok program ∧
      let s := settings.session start
      s.GoesThrough lines (inputLines program) ∧
      (runWith options settings t stdin now).Concludes options settings t now
        (s.through lines).machine.state ((s.visits 1 lines).all Visit.succeeds) := by
  cases hstart : options.startState settings t with
  | error fault =>
    obtain ⟨path, hpath, hload⟩ := exists_loadState_eq_error hstart
    exact absurd (.state hpath hload) h
  | ok start =>
    cases hprogram : options.programBytes t stdin with
    | error fault =>
      cases hpath : options.program with
      | none => exact absurd hprogram (by simp [Options.programBytes, hpath])
      | some path =>
        rw [Options.programBytes, hpath] at hprogram
        exact absurd (.program hpath hprogram) h
    | ok program =>
      have hread := (Run.snd_ofBytes_eq_none_iff (settings.session start) program).mpr
        fun hline => h (.line hstart hprogram hline)
      obtain ⟨lines, hlines, haccounts⟩ := Run.exists_goesThrough hread
      obtain ⟨state, log, rfl, hrun⟩ := exists_runWith_eq_simulate stdin now hstart
      refine ⟨_, program, lines, rfl, rfl, hlines, ?_⟩
      rw [hrun, ← haccounts.session, ← haccounts.isClean_eq]
      exact simulate_concludes (openInput_of_ok hprogram) (Prod.ext rfl hread)

end

/-! ### The program -/

/-- **The ways in which the program ends.**

The command line can be read.  Without settings, as they cannot be loaded or are wrong, the
program gives up with status two, and all files are as they were.  If the settings are to be
printed, the status is zero and all files are as they were; what else is in the files does not
matter, so the state file is not even read.  Otherwise the program may still give up in this way:
if the state file holds no state, if the program file cannot be read, or if the run comes to a
line that is not UTF-8.  If it does not, then there is a state to start from, and a program whose
lines the run goes through, up to the first that is a stop.  Behind them the state file, the one
of the command line before that of the settings, holds the final state, and if the state is to be
printed then this state is; the status is zero or one, for whether all of the lines succeeded.
A state that cannot be saved gives status two. -/
theorem launch_leaves {arguments : List (List Char)} {options : Options} (t : FileTree)
    (stdin : List UInt8) (now : UInt64)
    (harguments : Invocation.ofArguments arguments = .run options) :
    let o := launch arguments t stdin now
    (∀ fault, options.loadSettings t = .error fault → o.exit = 2 ∧ o.tree = t) ∧
    (∀ settings, options.loadSettings t = .ok settings → options.printSettings = true →
      o.exit = 0 ∧ o.tree = t ∧
        ∀ t' stdin' now', options.loadSettings t' = .ok settings →
          launch arguments t' stdin' now' = { o with tree := t' }) ∧
    (∀ settings, options.loadSettings t = .ok settings → options.printSettings = false →
      (options.GivesUp settings t stdin → o.exit = 2 ∧ o.tree = t) ∧
      (¬ options.GivesUp settings t stdin →
        ∃ start program lines, options.startState settings t = .ok start ∧
          options.programBytes t stdin = .ok program ∧
          let s := settings.session start
          s.GoesThrough lines (inputLines program) ∧
          o.Concludes options settings t now (s.through lines).machine.state
            ((s.visits 1 lines).all Visit.succeeds))) := by
  intro o
  refine ⟨fun fault hsettings => ?_, fun settings hsettings hprint => ?_,
    fun settings hsettings hprint => ⟨fun hgivesUp => ?_, fun hgivesUp => ?_⟩⟩
  · simp only [o, launch, harguments, hsettings, and_self]
  · have hlaunch (t' : FileTree) (stdin' : List UInt8) (now' : UInt64)
        (hsettings' : options.loadSettings t' = .ok settings) :
        launch arguments t' stdin' now' = { exit := 0, output := settings.toText, tree := t' } := by
      simp only [launch, harguments, hsettings', hprint, if_true]
    have ho : o = { exit := 0, output := settings.toText, tree := t } := hlaunch _ _ _ hsettings
    rw [ho]
    exact ⟨rfl, rfl, hlaunch⟩
  all_goals
    have ho : o = { runWith options settings t stdin now with
        logLevel := if options.verbose then .debug else settings.shared.logLevel } := by
      simp only [o, launch, harguments, hsettings, hprint, Bool.false_eq_true, if_false]
    rw [ho]
  · exact runWith_of_givesUp hgivesUp
  · obtain ⟨start, program, lines, hstart, hprogram, hlines, hends⟩ :=
      runWith_of_not_givesUp now hgivesUp
    exact ⟨start, program, lines, hstart, hprogram, hlines,
      ⟨hends.unsaved, hends.saved, hends.notSaved, hends.dumped⟩⟩

/-- A program on standard input with a line that fails, and a state file that is not there
before. -/
theorem launch_leaves_behind_failure :
    let arguments := ["--state-file".toList, "s".toList, "--dump-state".toList]
    let o := launch arguments (.empty []) (encodeUtf8 "G0 X1\nG500\n".toList) 7
    o.exit = 1 ∧ ∃ final : State Binary64,
      o.tree.entry "s".toList = .ok (.file (StateRecord.ofState final 7).encode) ∧
        ∃ before, o.output = before ++ final.toJson.pretty ++ "\n" := by
  intro arguments o
  let options : Options := { stateFile := some "s".toList, dumpState := true }
  have harguments : Invocation.ofArguments arguments = .run options := by decide +kernel
  have hexit : o.exit = 1 := by decide +kernel
  have hgoesOn : ¬ options.GivesUp .standard (.empty []) (encodeUtf8 "G0 X1\nG500\n".toList) := by
    rintro (⟨hpath, hload⟩ | ⟨hpath, -⟩ | ⟨-, hprogram, lines, rest, hline, -⟩)
    · obtain rfl := Option.some.inj hpath
      have hmissing : (loadState (.empty []) "s".toList).isOk = true := by decide +kernel
      rw [hload] at hmissing
      exact absurd hmissing (by simp [Except.isOk, Except.toBool])
    · exact absurd hpath (by simp [options])
    · rw [← Except.ok.inj hprogram, inputLines_encodeUtf8] at hline
      have hmem : Except.error InputFault.notUtf8 ∈
          (textLines "G0 X1\nG500\n".toList).map (Except.ok (ε := InputFault)) := by
        rw [hline]
        simp
      simp at hmem
  obtain ⟨-, -, hruns⟩ := launch_leaves (.empty []) (encodeUtf8 "G0 X1\nG500\n".toList) 7 harguments
  obtain ⟨start, program, lines, -, -, -, hends⟩ := (hruns .standard rfl rfl).2 hgoesOn
  refine ⟨hexit, _, ?_, hends.dumped rfl (by rw [hexit]; decide)⟩
  cases hsave : (saveState (.empty []) "s".toList
      ((Settings.standard.session start).through lines).machine.state 7).2 with
  | none => exact (hends.saved _ rfl hsave).1
  | some fault => exact absurd (hexit.symm.trans (hends.notSaved _ fault rfl hsave)) (by decide)

end NumericControl
