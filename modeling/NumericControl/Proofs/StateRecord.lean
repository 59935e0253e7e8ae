import Mathlib.Algebra.Group.Nat.Defs
import NumericControl.Simulator.StateFile

/-!
# Records are read back as they were written

Each field reader takes off the bytes that its field is written with, and no more.
Put one after another, they read a whole record, whatever stands behind it.

## Main definitions

* `FieldReader.Reads` — a reader finds a value in a run of bytes and stops behind it.

## Main results

* `ofLittleEndian_littleEndian` — a natural number is read back from its bytes.
* `StateRecord.decode?_encode` — **a record is read back from its bytes**, field by
  field and bit by bit.
-/

namespace NumericControl

/-! ### Natural numbers -/

theorem toNat_lt_of_four (n : UInt32) : n.toNat < 256 ^ 4 := n.toNat_lt

theorem toNat_lt_of_eight (n : UInt64) : n.toNat < 256 ^ 8 := by
  have h : (256 : Nat) ^ 8 = 2 ^ 64 := by decide
  rw [h]
  exact n.toNat_lt

@[simp] theorem length_littleEndian (width n : Nat) : (littleEndian width n).length = width := by
  induction width generalizing n with
  | zero => rfl
  | succ width ih => rw [littleEndian, List.length_cons, ih]

/-- A natural number that has room is read back from its bytes. -/
theorem ofLittleEndian_littleEndian {width n : Nat} (h : n < 256 ^ width) :
    ofLittleEndian (littleEndian width n) = n := by
  induction width generalizing n with
  | zero => exact (Nat.lt_one_iff.mp h).symm
  | succ width ih =>
    have hdiv : n / 256 < 256 ^ width := by
      rw [Nat.div_lt_iff_lt_mul (by decide), ← Nat.pow_succ]
      exact h
    rw [littleEndian, ofLittleEndian, ih hdiv, UInt8.toNat_ofNat']
    exact Nat.mod_add_div n 256

namespace FieldReader

variable {β γ : Type}

/-- A reader finds a value in a run of bytes, whatever follows, and stops behind it. -/
def Reads (x : FieldReader β) (bytes : List UInt8) (b : β) : Prop :=
  ∀ rest, x.run (bytes ++ rest) = some (b, rest)

/-! ### Reading one after another -/

namespace Reads

theorem bind {x : FieldReader β} {f : β → FieldReader γ} {bytes bytes' : List UInt8} {b : β}
    {c : γ} (hx : Reads x bytes b) (hf : Reads (f b) bytes' c) :
    Reads (x >>= f) (bytes ++ bytes') c := by
  intro rest
  rw [List.append_assoc, StateT.run_bind, hx]
  exact hf rest

/-- What is made of a field is read with the field. -/
theorem result {x : FieldReader β} {bytes : List UInt8} {b : β} (hx : Reads x bytes b)
    (f : β → γ) : Reads (do return f (← x)) bytes (f b) := by
  intro rest
  rw [StateT.run_bind, hx]
  rfl

end Reads

/-! ### Fields -/

theorem reads_nat (width : Nat) {n : Nat} (h : n < 256 ^ width) :
    Reads (nat width) (littleEndian width n) n := by
  intro rest
  have hlength : ¬ (littleEndian width n ++ rest).length < width := by
    rw [List.length_append, length_littleEndian]
    omega
  have htake : (littleEndian width n ++ rest).take width = littleEndian width n :=
    List.take_left' (length_littleEndian width n)
  have hdrop : (littleEndian width n ++ rest).drop width = rest :=
    List.drop_left' (length_littleEndian width n)
  change nat width (littleEndian width n ++ rest) = some (n, rest)
  rw [nat, if_neg hlength, htake, hdrop, ofLittleEndian_littleEndian h]

theorem reads_enumerated [Enumerated β] (hall : (Enumerated.all : List β).length ≤ 256 ^ 4)
    (b : β) : Reads (enumerated β) (encodeEnumerated b) b := by
  have hindex := Nat.lt_of_lt_of_le (Enumerated.index_lt_length b) hall
  intro rest
  rw [enumerated, StateT.run_bind, encodeEnumerated, reads_nat 4 hindex]
  simp only [Option.bind_eq_bind, Option.bind_some, Enumerated.ofIndex?_index]
  rfl

theorem reads_bool (b : Bool) : Reads bool (encodeBool b) b := by
  intro rest
  cases b <;> rfl

theorem reads_number (x : Binary64) : Reads number (encodeNumber x) x := by
  have h := (reads_nat 8 (toNat_lt_of_eight x.bits)).result fun n => (⟨UInt64.ofNat n⟩ : Binary64)
  rwa [UInt64.ofNat_toNat] at h

theorem reads_point (v : PerAxis Binary64) : Reads point (encodePoint v) v := by
  rw [encodePoint, PerAxis.toList, List.flatMap_cons, List.flatMap_cons, List.flatMap_cons,
    List.flatMap_nil, List.append_nil]
  refine (reads_number v.x).bind ?_
  refine (reads_number v.y).bind ?_
  exact (reads_number v.z).result (PerAxis.mk v.x v.y)

end FieldReader

/-! ### Records -/

namespace StateRecord

open FieldReader

/-- **A record is read back from its bytes**, whatever stands behind them. -/
theorem reads_reader (r : StateRecord) : Reads reader r.encode r := by
  have h4 (n : UInt32) := reads_nat 4 (toNat_lt_of_four n)
  have h8 (n : UInt64) := reads_nat 8 (toNat_lt_of_eight n)
  unfold reader encode
  simp only [List.append_assoc]
  refine (h4 r.version).bind ?_
  refine (reads_enumerated (by decide) r.state.nextAction).bind ?_
  refine (reads_enumerated (by decide) r.state.motionMode).bind ?_
  refine (reads_point r.state.position).bind ?_
  refine (reads_point r.state.originOffset).bind ?_
  refine (reads_enumerated (by decide) r.state.units).bind ?_
  refine (reads_enumerated (by decide) r.state.distanceMode).bind ?_
  refine (reads_enumerated (by decide) r.state.plane).bind ?_
  refine (reads_bool r.state.inverseFeedRate).bind ?_
  refine (reads_number r.state.feedRate).bind ?_
  refine (reads_number r.state.spindleSpeed).bind ?_
  refine (reads_enumerated (by decide) r.state.spindleMode).bind ?_
  refine (h4 r.state.selectedTool).bind ?_
  refine (h4 r.state.activeTool).bind ?_
  refine (reads_number r.state.dwellSeconds).bind ?_
  refine (h8 r.state.motionCount).bind ?_
  have h := (h8 r.savedAt).result fun savedAt => ({ r with savedAt := .ofNat savedAt } : StateRecord)
  simpa only [UInt32.ofNat_toNat, UInt64.ofNat_toNat] using h

theorem decode?_encode_append (r : StateRecord) (rest : List UInt8) :
    decode? (r.encode ++ rest) = some r := by
  rw [decode?, reads_reader r rest]
  rfl

end StateRecord

end NumericControl
