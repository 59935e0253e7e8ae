import NumericControl.Machine

/-!
# What a machine is asked for

A machine is known by its interface alone, so its states need not show which calls
were made on it.  A *traced* machine keeps beside a machine the list of all that it
was asked for, in order.  Whatever is done through the interface happens to a traced
machine as it happens to the machine inside, and so the list tells what is asked of
an arbitrary machine.

## Main definitions

* `Request`, `Traced` — what a machine is asked for, and a machine with a record of it.
* `Machine.respond`, `Machine.respondAll` — the machine after a request, and after many.
* `Machine.after` — the machine after calls of which none is left out.
* `Machine.AcceptsAll` — no call of a list is refused.
* `Machine.made` — the calls of a list up to the first that is refused, with that one.

## Main results

* `Machine.run_traced` — a run asks for the calls made, and for nothing else.
* `Machine.fst_run` — a run leaves what the calls made leave.
* `Machine.snd_run_eq_none_iff`, `Machine.exists_made_of_fault` — how a run ends.
-/

namespace NumericControl

/-- What a machine is asked for. -/
inductive Request (α : Type)
  /-- A block begins. -/
  | beginBlock
  /-- A call. -/
  | call (c : Call α)
  deriving DecidableEq, Repr

/-- A machine with a record of what it was asked for, the oldest first. -/
structure Traced (σ α : Type) where
  machine : σ
  requests : List (Request α)

variable {σ α : Type} [Machine σ α]

instance : Machine (Traced σ α) α where
  nextAction t := Machine.nextAction t.machine
  motionMode t := Machine.motionMode t.machine
  position t := Machine.position t.machine
  beginBlock t := ⟨Machine.beginBlock t.machine, t.requests ++ [.beginBlock]⟩
  perform t c :=
    (⟨(Machine.perform t.machine c).1, t.requests ++ [.call c]⟩,
      (Machine.perform t.machine c).2)

namespace Machine

/-- The machine after a request, whether a call is accepted or refused. -/
def respond (m : σ) : Request α → σ
  | .beginBlock => beginBlock m
  | .call c => (perform m c).1

/-- The machine after requests, none of them left out. -/
def respondAll (m : σ) (requests : List (Request α)) : σ :=
  requests.foldl respond m

/-- The machine after calls, none of them left out. -/
def after (m : σ) (calls : List (Call α)) : σ :=
  calls.foldl (fun m c => (perform m c).1) m

/-- No call of a list is refused. -/
def AcceptsAll (m : σ) : List (Call α) → Prop
  | [] => True
  | c :: calls => (perform m c).2 = none ∧ AcceptsAll (perform m c).1 calls

/-- The calls of a list that are made: those up to the first that is refused, with
that one. -/
def made (m : σ) : List (Call α) → List (Call α)
  | [] => []
  | c :: calls =>
    match (perform m c).2 with
    | none => c :: made (perform m c).1 calls
    | some _ => [c]

@[simp] theorem after_nil (m : σ) : after m ([] : List (Call α)) = m := rfl

@[simp] theorem after_cons (m : σ) (c : Call α) (calls : List (Call α)) :
    after m (c :: calls) = after (perform m c).1 calls := rfl

/-- Asking for calls alone leaves what the calls leave. -/
theorem respondAll_map_call (m : σ) (calls : List (Call α)) :
    respondAll m (calls.map .call) = after m calls := by
  rw [respondAll, List.foldl_map]
  rfl

@[simp] theorem perform_traced (t : Traced σ α) (c : Call α) :
    perform t c = (⟨(perform t.machine c).1, t.requests ++ [.call c]⟩, (perform t.machine c).2) :=
  rfl

/-! ### One call -/

theorem run_cons_of_accepted {m : σ} {c : Call α} (calls : List (Call α))
    (h : (perform m c).2 = none) : run m (c :: calls) = run (perform m c).1 calls := by
  rw [run]
  split
  · next heq => rw [heq]
  · next heq => rw [heq] at h; exact absurd h (by simp)

theorem run_cons_of_refused {m : σ} {c : Call α} (calls : List (Call α))
    {fault : MachineFault α} (h : (perform m c).2 = some fault) :
    run m (c :: calls) = ((perform m c).1, some fault) := by
  rw [run]
  split
  · next heq => rw [heq] at h; exact absurd h (by simp)
  · next heq => rw [heq] at h ⊢; simpa using h

theorem made_cons_of_accepted {m : σ} {c : Call α} (calls : List (Call α))
    (h : (perform m c).2 = none) : made m (c :: calls) = c :: made (perform m c).1 calls := by
  rw [made, h]

theorem made_cons_of_refused {m : σ} {c : Call α} (calls : List (Call α))
    {fault : MachineFault α} (h : (perform m c).2 = some fault) :
    made m (c :: calls) = [c] := by
  rw [made, h]

/-! ### Runs -/

theorem made_isPrefix (m : σ) (calls : List (Call α)) : made m calls <+: calls := by
  induction calls generalizing m with
  | nil => exact List.prefix_rfl
  | cons c calls ih =>
    cases h : (perform m c).2 with
    | none =>
      rw [made_cons_of_accepted calls h, List.cons_prefix_cons]
      exact ⟨rfl, ih _⟩
    | some fault =>
      rw [made_cons_of_refused calls h]
      exact ⟨calls, rfl⟩

/-- A run leaves what the calls made leave. -/
theorem fst_run (m : σ) (calls : List (Call α)) :
    (run m calls).1 = after m (made m calls) := by
  induction calls generalizing m with
  | nil => rfl
  | cons c calls ih =>
    cases h : (perform m c).2 with
    | none => rw [run_cons_of_accepted calls h, made_cons_of_accepted calls h, after_cons, ih]
    | some fault => rw [run_cons_of_refused calls h, made_cons_of_refused calls h]; rfl

/-- **A run asks for the calls made, and for nothing else.** -/
theorem run_traced (t : Traced σ α) (calls : List (Call α)) :
    run t calls =
      (⟨(run t.machine calls).1, t.requests ++ (made t.machine calls).map .call⟩,
        (run t.machine calls).2) := by
  induction calls generalizing t with
  | nil => simp [run, made]
  | cons c calls ih =>
    cases h : (perform t.machine c).2 with
    | none =>
      have ht : (perform t c).2 = none := h
      rw [run_cons_of_accepted calls h, made_cons_of_accepted calls h,
        run_cons_of_accepted calls ht, ih]
      simp
    | some fault =>
      have ht : (perform t c).2 = some fault := h
      rw [run_cons_of_refused calls h, made_cons_of_refused calls h,
        run_cons_of_refused calls ht]
      simp

/-- A run ends without a fault exactly if no call is refused. -/
theorem snd_run_eq_none_iff (m : σ) (calls : List (Call α)) :
    (run m calls).2 = none ↔ AcceptsAll m calls := by
  induction calls generalizing m with
  | nil => simp [run, AcceptsAll]
  | cons c calls ih =>
    cases h : (perform m c).2 with
    | none => rw [run_cons_of_accepted calls h, ih, AcceptsAll, h]; simp
    | some fault => rw [run_cons_of_refused calls h, AcceptsAll, h]; simp

/-- Behind calls that are accepted a run goes on with the others. -/
theorem run_append {m m' : σ} {first : List (Call α)} (h : run m first = (m', none))
    (rest : List (Call α)) : run m (first ++ rest) = run m' rest := by
  induction first generalizing m with
  | nil =>
    obtain rfl : m = m' := congrArg Prod.fst h
    rfl
  | cons c first ih =>
    cases hc : (perform m c).2 with
    | none =>
      rw [run_cons_of_accepted first hc] at h
      rw [List.cons_append, run_cons_of_accepted _ hc]
      exact ih h
    | some fault =>
      rw [run_cons_of_refused first hc] at h
      exact absurd (congrArg Prod.snd h) (by simp)

/-- Behind a call that is refused a run does not go on. -/
theorem run_append_of_fault {m m' : σ} {first : List (Call α)} {fault : MachineFault α}
    (h : run m first = (m', some fault)) (rest : List (Call α)) :
    run m (first ++ rest) = (m', some fault) := by
  induction first generalizing m with
  | nil => exact absurd (congrArg Prod.snd h) (by simp [run])
  | cons c first ih =>
    cases hc : (perform m c).2 with
    | none =>
      rw [run_cons_of_accepted first hc] at h
      rw [List.cons_append, run_cons_of_accepted _ hc]
      exact ih h
    | some f =>
      rw [run_cons_of_refused first hc] at h
      rw [List.cons_append, run_cons_of_refused _ hc]
      exact h

/-- A run without a fault has none on its way. -/
theorem exists_run_of_append {m m'' : σ} {first rest : List (Call α)}
    (h : run m (first ++ rest) = (m'', none)) :
    ∃ m', run m first = (m', none) ∧ run m' rest = (m'', none) := by
  cases hfault : (run m first).2 with
  | none =>
    have hfirst : run m first = (_, none) := Prod.ext rfl hfault
    exact ⟨_, hfirst, (run_append hfirst rest).symm.trans h⟩
  | some fault =>
    rw [run_append_of_fault (Prod.ext rfl hfault)] at h
    exact absurd (congrArg Prod.snd h) (by simp)

/-- Calls that are accepted are all made, and the others behind them. -/
theorem made_append {m m' : σ} {first : List (Call α)} (h : run m first = (m', none))
    (rest : List (Call α)) : made m (first ++ rest) = first ++ made m' rest := by
  induction first generalizing m with
  | nil =>
    obtain rfl : m = m' := congrArg Prod.fst h
    rfl
  | cons c first ih =>
    cases hc : (perform m c).2 with
    | none =>
      rw [run_cons_of_accepted first hc] at h
      rw [List.cons_append, made_cons_of_accepted _ hc, ih h, List.cons_append]
    | some fault =>
      rw [run_cons_of_refused first hc] at h
      exact absurd (congrArg Prod.snd h) (by simp)

theorem run_singleton (m : σ) (c : Call α) : run m [c] = perform m c := by
  rw [run]
  rcases perform m c with ⟨m', _ | fault⟩ <;> rfl

theorem made_singleton (m : σ) (c : Call α) : made m [c] = [c] := by
  rw [made]
  cases (perform m c).2 <;> rfl

theorem made_eq_self {m : σ} {calls : List (Call α)} (h : AcceptsAll m calls) :
    made m calls = calls := by
  induction calls generalizing m with
  | nil => rfl
  | cons c calls ih => rw [made_cons_of_accepted calls h.1, ih h.2]

/-- A run that ends with a fault ends at a call that was refused with it, after calls
that were not. -/
theorem exists_made_of_fault {m : σ} {calls : List (Call α)} {fault : MachineFault α}
    (h : (run m calls).2 = some fault) :
    ∃ accepted last, made m calls = accepted ++ [last] ∧ AcceptsAll m accepted ∧
      (perform (after m accepted) last).2 = some fault := by
  induction calls generalizing m with
  | nil => exact absurd h (by simp [run])
  | cons c calls ih =>
    cases hc : (perform m c).2 with
    | none =>
      rw [run_cons_of_accepted calls hc] at h
      obtain ⟨accepted, last, hmade, hacc, hlast⟩ := ih h
      refine ⟨c :: accepted, last, ?_, ⟨hc, hacc⟩, hlast⟩
      rw [made_cons_of_accepted calls hc, hmade, List.cons_append]
    | some f =>
      rw [run_cons_of_refused calls hc] at h
      exact ⟨[], c, made_cons_of_refused calls hc, trivial, by rw [after_nil, hc]; exact h⟩

end Machine

end NumericControl
