import NumericControl.Proofs.BinaryValue
import NumericControl.Proofs.LastAssignment

/-!
# Codes are cut off toward zero

A G or M code is the integral part of the value of its word, brought into the range of 32 bits,
and a tool number is the integral part if it is a natural number of 32 bits.  So a value is made
an integer in three places, and in none of them may it become one it does not stand for.  A bound
of a range could be a code, and a number that is cut to 32 bits could come out as one; here it is
shown that neither happens.

This is told of the number that a value stands for, once for exact numbers of any size and once
for finite floating-point words.  The two differ only in how the integral part is taken, and that
it is the same has been shown of words already.

## Main definitions

* `codeLetters` — the letters whose words hold a code, with their codes.
* `ReadsWhole` — words with a value are read by the integral part of a number.

## Main results

* `ReadsWhole.of_toInt` — whatever number has the same integral part.
* `codes_are_truncated` — **codes and tool numbers are cut off toward zero, and never wrap**.
-/

namespace NumericControl

open ExactNumber (integralPart)

/-- The letters whose words hold a code, each with the codes that have a meaning and with what a
code does. -/
def codeLetters (α : Type) : List (Char × List Int × (Proposal α → Int → Option (Proposal α))) :=
  [('G', gCodes, Proposal.applyG?), ('M', mCodes, Proposal.applyM?)]

/-- Words with a value are read by the integral part of a number.  A code acts as it stands in
its table, and one that does not is a fault, as are all codes beyond 32 bits and from minus one
down.  A tool number is a natural number of 32 bits, and no other number selects a tool. -/
structure ReadsWhole {α K : Type} [Number α] [ExactNumber K] (value : α) (number : K) : Prop where
  code : ∀ letter codes act, (letter, codes, act) ∈ codeLetters α → ∀ p : Proposal α,
    (integralPart number ∈ codes →
      ∃ q, act p (integralPart number) = some q ∧ p.apply ⟨letter, value⟩ = .ok q) ∧
    (integralPart number ∉ codes →
      p.apply ⟨letter, value⟩ = .error (.unsupportedWord letter value)) ∧
    (number ≤ -1 ∨ 2 ^ 31 ≤ number →
      p.apply ⟨letter, value⟩ = .error (.unsupportedWord letter value))
  tool : ∀ p : Proposal α,
    (-1 < number ∧ number < 2 ^ 32 →
      ∃ tool : UInt32, (tool.toNat : ℤ) = integralPart number ∧
        p.apply ⟨'T', value⟩ = .ok { p with changes := { p.changes with tool := some tool } }) ∧
    (¬ (-1 < number ∧ number < 2 ^ 32) →
      p.apply ⟨'T', value⟩ = .error (.unsupportedWord 'T' value))

/-! ### Codes and tool numbers -/

section

variable {α K : Type} [Number α] [ExactNumber K] {value : α} {number : K}

/-- No code with a meaning is below zero or has more than 31 bits. -/
theorem integralPart_notMem {codes : List Int} (hcodes : ∀ n ∈ codes, 0 ≤ n ∧ n < 2 ^ 31)
    (h : number ≤ -1 ∨ 2 ^ 31 ≤ number) : integralPart number ∉ codes := by
  intro hmem
  obtain ⟨hlow, hhigh⟩ := hcodes _ hmem
  rw [ExactNumber.integralPart_nonneg_iff] at hlow
  rw [ExactNumber.integralPart_lt_iff (by decide)] at hhigh
  rcases h with h | h
  · exact h.not_gt hlow
  · exact h.not_gt (by exact_mod_cast hhigh)

/-- **A word whose code is looked up in a table** is applied as the table says, and codes beyond
the table are faults. -/
theorem Proposal.apply_of_table {p q : Proposal α} {letter : Char} {codes : List Int}
    {looked : Option (Proposal α)} (hcodes : ∀ n ∈ codes, 0 ≤ n ∧ n < 2 ^ 31)
    (happlied : p.applied? ⟨letter, value⟩ = looked)
    (hlooked : looked = if codes.contains (integralPart number) then some q else none) :
    (integralPart number ∈ codes → ∃ q, looked = some q ∧ p.apply ⟨letter, value⟩ = .ok q) ∧
    (integralPart number ∉ codes →
      p.apply ⟨letter, value⟩ = .error (.unsupportedWord letter value)) ∧
    (number ≤ -1 ∨ 2 ^ 31 ≤ number →
      p.apply ⟨letter, value⟩ = .error (.unsupportedWord letter value)) := by
  have hfault (hn : integralPart number ∉ codes) :
      p.apply ⟨letter, value⟩ = .error (.unsupportedWord letter value) := by
    rw [apply, happlied, hlooked, if_neg (by simpa using hn)]
  refine ⟨fun hn => ⟨q, ?_, ?_⟩, hfault, fun hbeyond => hfault (integralPart_notMem hcodes hbeyond)⟩
  · rw [hlooked, if_pos (List.contains_iff_mem.mpr hn)]
  · rw [apply, happlied, hlooked, if_pos (List.contains_iff_mem.mpr hn)]

/-- **Words are read by the integral part of any number that has that of their value.** -/
theorem ReadsWhole.of_toInt (h : Number.toInt value = integralPart number) :
    ReadsWhole value number where
  code letter codes act hmem p := by
    simp only [codeLetters, List.mem_cons, Prod.mk.injEq, List.not_mem_nil, or_false] at hmem
    rcases hmem with ⟨rfl, rfl, rfl⟩ | ⟨rfl, rfl, rfl⟩
    · exact Proposal.apply_of_table (by decide) (h ▸ p.applyG?_codeOf value)
        (h ▸ p.applyG?_eq value)
    · exact Proposal.apply_of_table (by decide) (h ▸ p.applyM?_codeOf value)
        (h ▸ p.applyM?_eq value)
  tool p := by
    have hrange : 0 ≤ integralPart number ∧ integralPart number < 0x100000000 ↔
        -1 < number ∧ number < 2 ^ 32 := by
      rw [ExactNumber.integralPart_nonneg_iff, ExactNumber.integralPart_lt_iff (by decide)]
      norm_num
    have happly : p.applied? ⟨'T', value⟩ = p.applyT? (integralPart number) := by
      rw [← h]
      rfl
    rw [Proposal.apply, happly, Proposal.applyT?, ← hrange]
    constructor
    · intro hn
      rw [if_pos hn]
      have htool : (integralPart number).toNat < 2 ^ 32 := by omega
      refine ⟨_, ?_, rfl⟩
      rw [UInt32.toNat_ofNat', Nat.mod_eq_of_lt htool, Int.toNat_of_nonneg hn.1]
    · intro hn
      rw [if_neg hn]

end

/-- **Codes and tool numbers are cut off toward zero, and never wrap.**

An exact number of any size and a finite floating-point word are read by their integral part.  A
G or M word is applied exactly if the integral part is a code with a meaning, and then it does
what the code does; so no number of minus one or below, and none beyond 32 bits, acts as a code.
A T word is applied exactly if its number is above minus one and below `2 ^ 32`, and it selects
the tool whose number is the integral part.  Every other word is a fault that names its letter
and its value. -/
theorem codes_are_truncated {F : Type} [ExactNumber F] :
    (∀ number : F, ReadsWhole number number) ∧
      ∀ x : Binary64, x.isFinite = true → ReadsWhole x x.toRat :=
  ⟨fun _ => .of_toInt rfl, fun _ hx => .of_toInt (Binary64.toInt_eq_integralPart hx)⟩

/-- A number of which a one is left in 32 bits is no code of a feed, and a number that leaves
nothing there selects no tool. -/
example (p : Proposal ℚ) :
    p.apply ⟨'G', 4294967297⟩ = .error (.unsupportedWord 'G' 4294967297) ∧
    p.apply ⟨'T', 4294967296⟩ = .error (.unsupportedWord 'T' 4294967296) :=
  ⟨rfl, rfl⟩

end NumericControl
