import NumericControl.Binary64.Arithmetic
import NumericControl.Proofs.StateStore

/-!
# The layout of the state file

A record takes up 125 bytes, and nearly every run of so many bytes is one: all that can
be wrong with it is the place of a value in one of six modal groups, and the byte of a
truth value.  What is read off such a run is written with the very same bytes, so records
and the runs that hold them stand for each other.

The reader of a record is put together from readers of fields, and what is said of it is
put together in the same way.  `FieldReader.Reads` says that a reader finds what was
written; the converse needs two more facts of each field.

## Main definitions

* `FieldReader.Spans` — how many bytes a reader takes off, and which of them have a value.
* `FieldReader.Restores` — what a reader finds is written with the bytes that it takes off.
* `numberAt` — the natural number at a place in a run of bytes.
* `HoldsRecord` — what a run of bytes needs to hold a record.

## Main results

* `StateRecord.spans_reader`, `StateRecord.restores_reader` — both facts of a record.
* `StateRecord.layout_is_exact` — **records and the runs of bytes that hold them stand for
  each other**.
* `loadState_of_otherVersion` — **a record of another version is put aside**, and a file that
  holds no record is a fault whatever its version.
-/

namespace NumericControl

/-! ### Natural numbers -/

/-- Every run of bytes writes the natural number that is read off it. -/
theorem littleEndian_ofLittleEndian (bytes : List UInt8) :
    littleEndian bytes.length (ofLittleEndian bytes) = bytes := by
  induction bytes with
  | nil => rfl
  | cons b bytes ih =>
    have hb : b.toNat < 256 := b.toNat_lt
    have hlow : UInt8.ofNat (b.toNat + 256 * ofLittleEndian bytes) = b := by
      refine UInt8.toNat_inj.mp ?_
      rw [UInt8.toNat_ofNat']
      omega
    have hhigh : (b.toNat + 256 * ofLittleEndian bytes) / 256 = ofLittleEndian bytes := by omega
    rw [ofLittleEndian, List.length_cons, littleEndian, hlow, hhigh, ih]

/-- What has no room is not written. -/
theorem littleEndian_mod (width n : Nat) :
    littleEndian width (n % 256 ^ width) = littleEndian width n := by
  induction width generalizing n with
  | zero => rfl
  | succ width ih =>
    have hlow : UInt8.ofNat (n % 256 ^ (width + 1)) = UInt8.ofNat n := by
      refine UInt8.toNat_inj.mp ?_
      rw [UInt8.toNat_ofNat', UInt8.toNat_ofNat', Nat.pow_succ']
      exact Nat.mod_mul_right_mod n 256 (256 ^ width)
    have hhigh : n % 256 ^ (width + 1) / 256 = n / 256 % 256 ^ width := by
      rw [Nat.pow_succ']
      exact Nat.mod_mul_right_div_self n 256 (256 ^ width)
    rw [littleEndian, littleEndian, hlow, hhigh, ih]

namespace FieldReader

variable {β γ : Type}

theorem exists_of_run_bind {x : FieldReader β} {f : β → FieldReader γ} {bytes rest : List UInt8}
    {c : γ} (h : (x >>= f).run bytes = some (c, rest)) :
    ∃ b mid, x.run bytes = some (b, mid) ∧ (f b).run mid = some (c, rest) := by
  rw [StateT.run_bind] at h
  obtain ⟨⟨b, mid⟩, hx, hf⟩ := Option.bind_eq_some_iff.mp h
  exact ⟨b, mid, hx, hf⟩

theorem run_failure (bytes : List UInt8) :
    (Alternative.failure : FieldReader β).run bytes = none :=
  rfl

/-! ### How many bytes a reader takes off, and which -/

/-- A reader finds a value exactly if there are enough bytes and those at the head of them
are sound, and it stops behind a fixed number of bytes. -/
structure Spans (x : FieldReader β) (width : Nat) (Sound : List UInt8 → Prop) : Prop where
  isSome_iff : ∀ bytes, (x.run bytes).isSome ↔ width ≤ bytes.length ∧ Sound bytes
  rest_eq : ∀ {bytes b rest}, x.run bytes = some (b, rest) → rest = bytes.drop width

namespace Spans

variable {x : FieldReader β} {width width' : Nat} {P Q : List UInt8 → Prop}

theorem pure (b : β) : Spans (Pure.pure b) 0 fun _ => True where
  isSome_iff bytes := by simp
  rest_eq h := (congrArg Prod.snd (Option.some.inj h)).symm

theorem failure : Spans (Alternative.failure : FieldReader β) 0 fun _ => False where
  isSome_iff bytes := by
    rw [run_failure]
    simp
  rest_eq h := absurd ((run_failure _).symm.trans h) (by simp)

theorem congr (h : Spans x width P) (hwidth : width = width')
    (hPQ : ∀ bytes, width ≤ bytes.length → (P bytes ↔ Q bytes)) : Spans x width' Q where
  isSome_iff bytes := by
    rw [h.isSome_iff bytes, ← hwidth]
    exact and_congr_right (hPQ bytes)
  rest_eq hrun := hwidth ▸ h.rest_eq hrun

/-- A reader behind another one takes the bytes behind those of the other one. -/
theorem bind {f : β → FieldReader γ} (hx : Spans x width P) (hf : ∀ b, Spans (f b) width' Q) :
    Spans (x >>= f) (width + width') fun bytes => P bytes ∧ Q (bytes.drop width) where
  isSome_iff bytes := by
    have hlength : width + width' ≤ bytes.length ↔
        width ≤ bytes.length ∧ width' ≤ (bytes.drop width).length := by
      rw [List.length_drop]
      omega
    have hhead := hx.isSome_iff bytes
    rw [StateT.run_bind]
    cases hrun : x.run bytes with
    | none =>
      rw [hrun] at hhead
      refine iff_of_false (by simp) fun h => ?_
      exact absurd (hhead.mpr ⟨(hlength.mp h.1).1, h.2.1⟩) (by simp)
    | some found =>
      obtain ⟨b, rest⟩ := found
      rw [hrun] at hhead
      obtain ⟨hwidth, hP⟩ := hhead.mp rfl
      obtain rfl := hx.rest_eq hrun
      rw [Option.bind_eq_bind, Option.bind_some, (hf b).isSome_iff, hlength]
      constructor
      · rintro ⟨hwidth', hQ⟩
        exact ⟨⟨hwidth, hwidth'⟩, hP, hQ⟩
      · rintro ⟨⟨-, hwidth'⟩, -, hQ⟩
        exact ⟨hwidth', hQ⟩
  rest_eq h := by
    obtain ⟨b, mid, hb, hc⟩ := exists_of_run_bind h
    rw [(hf b).rest_eq hc, hx.rest_eq hb, List.drop_drop]

end Spans

theorem spans_nat (width : Nat) : Spans (nat width) width fun _ => True where
  isSome_iff bytes := by
    change (nat width bytes).isSome ↔ _
    by_cases h : bytes.length < width
    · simp [nat, h]
    · simp [nat, h, Nat.not_lt.mp h]
  rest_eq {bytes n rest} h := by
    change nat width bytes = some (n, rest) at h
    unfold nat at h
    split at h
    · exact absurd h (by simp)
    · exact (congrArg Prod.snd (Option.some.inj h)).symm

/-- What is made of a natural number may have a value for some numbers only. -/
theorem spans_nat_bind {width : Nat} {f : Nat → FieldReader β} {P : Nat → Prop}
    (hf : ∀ n, Spans (f n) 0 fun _ => P n) :
    Spans (nat width >>= f) width fun bytes => P (ofLittleEndian (bytes.take width)) where
  isSome_iff bytes := by
    rw [StateT.run_bind]
    change ((nat width bytes).bind fun found => (f found.1).run found.2).isSome ↔ _
    by_cases h : bytes.length < width
    · have hno : ¬ width ≤ bytes.length := Nat.not_le_of_lt h
      simp [nat, h, hno]
    · have hsome := (hf (ofLittleEndian (bytes.take width))).isSome_iff (bytes.drop width)
      simp only [nat, h, if_false, Option.bind_some, hsome, Nat.zero_le, true_and,
        Nat.not_lt.mp h]
  rest_eq h := by
    obtain ⟨n, mid, hn, hb⟩ := exists_of_run_bind h
    rw [(hf n).rest_eq hb, (spans_nat width).rest_eq hn, List.drop_zero]

theorem spans_enumerated [Enumerated β] : Spans (enumerated β) 4 fun bytes =>
    ofLittleEndian (bytes.take 4) < (Enumerated.all : List β).length := by
  refine spans_nat_bind (P := (· < (Enumerated.all : List β).length)) fun i => ?_
  have hi := Enumerated.isSome_ofIndex?_iff (α := β) i
  cases h : (Enumerated.ofIndex? i : Option β) with
  | some a =>
    rw [h] at hi
    exact (Spans.pure a).congr rfl fun _ _ => iff_of_true trivial (hi.mp rfl)
  | none =>
    rw [h] at hi
    exact Spans.failure.congr rfl fun _ _ => iff_of_false id fun hlt => absurd (hi.mpr hlt) (by simp)

theorem spans_bool : Spans bool 1 fun bytes => ofLittleEndian (bytes.take 1) ≤ 1 := by
  refine spans_nat_bind (P := (· ≤ 1)) fun n => ?_
  match n with
  | 0 => exact (Spans.pure false).congr rfl fun _ _ => by simp
  | 1 => exact (Spans.pure true).congr rfl fun _ _ => by simp
  | n + 2 => exact Spans.failure.congr rfl fun _ _ => by simp

theorem spans_number : Spans number 8 fun _ => True := by
  have h := (spans_nat 8).bind fun n => Spans.pure (⟨UInt64.ofNat n⟩ : Binary64)
  exact h.congr rfl fun _ _ => by simp

theorem spans_point : Spans point 24 fun _ => True := by
  have h := spans_number.bind fun x => spans_number.bind fun y => spans_number.bind fun z =>
    Spans.pure (PerAxis.mk x y z)
  exact h.congr rfl fun _ _ => by simp

/-! ### What a reader finds is written with the bytes that it takes off -/

/-- Behind bytes that were taken off already, what a reader finds is written with those
and the ones that it takes off itself. -/
def Restores (done : List UInt8) (x : FieldReader β) (write : β → List UInt8) : Prop :=
  ∀ ⦃bytes b rest⦄, x.run bytes = some (b, rest) → done ++ bytes = write b ++ rest

namespace Restores

variable {done : List UInt8} {write : β → List UInt8}

theorem pure {b : β} (h : write b = done) : Restores done (Pure.pure b) write := by
  intro bytes c rest hrun
  rw [StateT.run_pure] at hrun
  obtain ⟨rfl, rfl⟩ := Prod.mk.inj (Option.some.inj hrun)
  rw [h]

theorem failure : Restores done (Alternative.failure : FieldReader β) write := by
  intro bytes b rest h
  exact absurd ((run_failure bytes).symm.trans h) (by simp)

/-- What is read behind a field takes the field for read. -/
theorem bind {x : FieldReader β} {f : β → FieldReader γ} {write' : γ → List UInt8}
    (hx : Restores [] x write) (hf : ∀ b, Restores (done ++ write b) (f b) write') :
    Restores done (x >>= f) write' := by
  intro bytes c rest h
  obtain ⟨b, mid, hb, hc⟩ := exists_of_run_bind h
  have hhead : bytes = write b ++ mid := hx hb
  rw [hhead, ← List.append_assoc]
  exact hf b hc

end Restores

theorem restores_nat (width : Nat) : Restores [] (nat width) (littleEndian width) := by
  intro bytes n rest h
  change nat width bytes = some (n, rest) at h
  unfold nat at h
  split at h
  · exact absurd h (by simp)
  · next hlength =>
    obtain ⟨rfl, rfl⟩ := Prod.mk.inj (Option.some.inj h)
    have hwidth : (bytes.take width).length = width := by
      rw [List.length_take]
      omega
    have hwrite := littleEndian_ofLittleEndian (bytes.take width)
    rw [hwidth] at hwrite
    rw [hwrite, List.take_append_drop, List.nil_append]

/-- A natural number of four bytes has room in a word. -/
theorem restores_four : Restores [] (nat 4) fun n => littleEndian 4 (UInt32.ofNat n).toNat := by
  intro bytes n rest h
  have hn : littleEndian 4 (UInt32.ofNat n).toNat = littleEndian 4 n := by
    rw [UInt32.toNat_ofNat']
    exact littleEndian_mod 4 n
  simp only [hn]
  exact restores_nat 4 h

/-- A natural number of eight bytes has room in a double word. -/
theorem restores_eight : Restores [] (nat 8) fun n => littleEndian 8 (UInt64.ofNat n).toNat := by
  intro bytes n rest h
  have hn : littleEndian 8 (UInt64.ofNat n).toNat = littleEndian 8 n := by
    rw [UInt64.toNat_ofNat']
    exact littleEndian_mod 8 n
  simp only [hn]
  exact restores_nat 8 h

theorem restores_enumerated [Enumerated β] (hall : (Enumerated.all : List β).Nodup) :
    Restores [] (enumerated β) encodeEnumerated := by
  refine (restores_nat 4).bind fun i => ?_
  cases h : (Enumerated.ofIndex? i : Option β) with
  | none => exact .failure
  | some b => exact .pure (congrArg (littleEndian 4) (Enumerated.index_of_ofIndex? hall h))

theorem restores_bool : Restores [] bool encodeBool := by
  refine (restores_nat 1).bind fun n => ?_
  match n with
  | 0 => exact .pure rfl
  | 1 => exact .pure rfl
  | n + 2 => exact .failure

theorem restores_number : Restores [] number encodeNumber :=
  restores_eight.bind fun _ => .pure rfl

theorem restores_point : Restores [] point encodePoint := by
  refine restores_number.bind fun x => ?_
  refine restores_number.bind fun y => ?_
  refine restores_number.bind fun z => ?_
  exact .pure (by simp [encodePoint, PerAxis.toList])

end FieldReader

/-! ### Records -/

/-- The natural number in some bytes behind others, the least significant byte first. -/
def numberAt (bytes : List UInt8) (offset width : Nat) : Nat :=
  ofLittleEndian ((bytes.drop offset).take width)

/-- What a run of bytes needs to hold a record: it is long enough, six of its numbers are
places in a modal group, and one of its bytes is a truth value. -/
structure HoldsRecord (bytes : List UInt8) : Prop where
  length : 125 ≤ bytes.length
  nextAction : numberAt bytes 4 4 < (Enumerated.all : List NextAction).length
  motionMode : numberAt bytes 8 4 < (Enumerated.all : List MotionMode).length
  units : numberAt bytes 60 4 < (Enumerated.all : List Units).length
  distanceMode : numberAt bytes 64 4 < (Enumerated.all : List DistanceMode).length
  plane : numberAt bytes 68 4 < (Enumerated.all : List Plane).length
  inverseFeedRate : numberAt bytes 72 1 ≤ 1
  spindleMode : numberAt bytes 89 4 < (Enumerated.all : List SpindleMode).length

namespace StateRecord

open FieldReader

/-- **A record is read off 125 bytes, and any that hold one.** -/
theorem spans_reader : Spans reader 125 HoldsRecord := by
  have h : Spans reader _ _ :=
    (spans_nat 4).bind fun _ => spans_enumerated.bind fun _ => spans_enumerated.bind fun _ =>
    spans_point.bind fun _ => spans_point.bind fun _ =>
    spans_enumerated.bind fun _ => spans_enumerated.bind fun _ => spans_enumerated.bind fun _ =>
    spans_bool.bind fun _ => spans_number.bind fun _ => spans_number.bind fun _ =>
    spans_enumerated.bind fun _ => (spans_nat 4).bind fun _ => (spans_nat 4).bind fun _ =>
    spans_number.bind fun _ => (spans_nat 8).bind fun _ => (spans_nat 8).bind fun _ =>
    Spans.pure _
  refine h.congr rfl fun bytes hlength => ?_
  -- each field begins where the widths of those before it add up to
  simp only [List.drop_drop, Nat.reduceAdd, true_and, and_true]
  constructor
  · rintro ⟨haction, hmode, hunits, hdistance, hplane, hinverse, hspindle⟩
    exact ⟨hlength, haction, hmode, hunits, hdistance, hplane, hinverse, hspindle⟩
  · rintro ⟨-, haction, hmode, hunits, hdistance, hplane, hinverse, hspindle⟩
    exact ⟨haction, hmode, hunits, hdistance, hplane, hinverse, hspindle⟩

/-- **What is read as a record is written with the bytes that it was read off.** -/
theorem restores_reader : Restores [] reader encode := by
  unfold reader
  refine restores_four.bind fun version => ?_
  refine (restores_enumerated (by decide)).bind fun nextAction => ?_
  refine (restores_enumerated (by decide)).bind fun motionMode => ?_
  refine restores_point.bind fun position => ?_
  refine restores_point.bind fun originOffset => ?_
  refine (restores_enumerated (by decide)).bind fun units => ?_
  refine (restores_enumerated (by decide)).bind fun distanceMode => ?_
  refine (restores_enumerated (by decide)).bind fun plane => ?_
  refine restores_bool.bind fun inverseFeedRate => ?_
  refine restores_number.bind fun feedRate => ?_
  refine restores_number.bind fun spindleSpeed => ?_
  refine (restores_enumerated (by decide)).bind fun spindleMode => ?_
  refine restores_four.bind fun selectedTool => ?_
  refine restores_four.bind fun activeTool => ?_
  refine restores_number.bind fun dwellSeconds => ?_
  refine restores_eight.bind fun motionCount => ?_
  refine restores_eight.bind fun savedAt => ?_
  exact .pure rfl

/-- A record takes up 125 bytes. -/
theorem length_encode (r : StateRecord) : r.encode.length = 125 := by
  have hrun : reader.run r.encode = some (r, []) := by
    have h := reads_reader r []
    rwa [List.append_nil] at h
  have hge : 125 ≤ r.encode.length := ((spans_reader.isSome_iff _).mp (by rw [hrun]; rfl)).1
  have hle : r.encode.length ≤ 125 := List.drop_eq_nil_iff.mp (spans_reader.rest_eq hrun).symm
  exact Nat.le_antisymm hle hge

/-- A run of bytes is read as a record exactly if it holds one. -/
theorem exists_decode?_iff (bytes : List UInt8) :
    (∃ r, decode? bytes = some r) ↔ HoldsRecord bytes := by
  rw [← Option.isSome_iff_exists, decode?, Option.isSome_map, spans_reader.isSome_iff]
  exact ⟨And.right, fun h => ⟨h.length, h⟩⟩

/-- What is read as a record is written with the bytes at its head. -/
theorem eq_encode_append_of_decode? {bytes : List UInt8} {r : StateRecord}
    (h : decode? bytes = some r) : bytes = r.encode ++ bytes.drop 125 := by
  obtain ⟨⟨r, rest⟩, hrun, rfl⟩ := Option.map_eq_some_iff.mp h
  obtain rfl := spans_reader.rest_eq hrun
  exact restores_reader hrun

/-- The version of a record is the number at its head. -/
theorem numberAt_encode_append (r : StateRecord) (rest : List UInt8) :
    numberAt (r.encode ++ rest) 0 4 = r.version.toNat := by
  unfold numberAt encode
  simp only [List.append_assoc, List.drop_zero]
  rw [List.take_left' (length_littleEndian 4 _), ofLittleEndian_littleEndian (toNat_lt_of_four _)]

/-- **Records and the runs of bytes that hold them stand for each other.**

A record is read back from its bytes, whatever stands behind them, and it takes up 125
bytes.  A run of bytes is read as a record exactly if it is as long, if its six places are
in their groups and its truth value is one; and the record that is read is written with the
first 125 bytes of the run.  So the state that is loaded is the one that was saved. -/
theorem layout_is_exact :
    (∀ (r : StateRecord) (rest : List UInt8), decode? (r.encode ++ rest) = some r) ∧
    (∀ r : StateRecord, r.encode.length = 125) ∧
    (∀ bytes : List UInt8, (∃ r, decode? bytes = some r) ↔ HoldsRecord bytes) ∧
    (∀ (bytes : List UInt8) (r : StateRecord), decode? bytes = some r →
      r.encode = bytes.take 125) ∧
    (∀ (t t' : FileTree) (path : List Char) (state : State Binary64) (now : UInt64),
      saveState t path state now = (t', none) →
      (loadState t' path).map StoredState.state? = .ok (some state)) := by
  refine ⟨decode?_encode_append, length_encode, exists_decode?_iff, ?_, ?_⟩
  · intro bytes r h
    rw [eq_encode_append_of_decode? h]
    exact (List.take_left' (length_encode r)).symm
  · intro t t' path state now hsave
    have hload := loadState_of_saveState (congrArg Prod.snd hsave)
    rw [hsave] at hload
    rw [hload]
    rfl

/-- A state with numbers that are none, saved in a directory that is made for it. -/
theorem layout_is_exact_for_not_a_number :
    let state : State Binary64 :=
      { (State.initial : State Binary64) with
        feedRate := ⟨0x7FF4000000000001⟩
        dwellSeconds := ⟨0xFFF8000000000000⟩ }
    ∃ t', saveState (.empty []) "kept/state".toList state 7 = (t', none) ∧
      (loadState t' "kept/state".toList).map StoredState.state? = .ok (some state) := by
  intro state
  have hsave : (saveState (.empty []) "kept/state".toList state 7).2 = none := by decide +kernel
  obtain ⟨-, -, -, -, hload⟩ := layout_is_exact
  exact ⟨_, Prod.ext rfl hsave, hload _ _ _ _ _ (Prod.ext rfl hsave)⟩

end StateRecord

/-! ### Other versions -/

/-- **A record of another version is put aside**, and the machine starts afresh.  The whole
record is read before its version is looked at, so a file that holds no record of the
present layout is a fault, whatever its version. -/
theorem loadState_of_otherVersion {t : FileTree} {path : List Char} {bytes : List UInt8}
    (hfile : t.entry path = .ok (.file bytes))
    (hversion : numberAt bytes 0 4 ≠ StateRecord.currentVersion.toNat) :
    (HoldsRecord bytes → (loadState t path).map StoredState.state? = .ok none) ∧
      (¬ HoldsRecord bytes → loadState t path = .error .notDecoded) := by
  rw [← StateRecord.exists_decode?_iff]
  cases hdecode : StateRecord.decode? bytes with
  | none =>
    have hstored : StoredState.ofBytes? bytes = none := by
      rw [StoredState.ofBytes?, hdecode]
      rfl
    refine ⟨fun h => absurd h (by simp), fun _ => ?_⟩
    simp only [loadState, hfile, hstored]
  | some r =>
    have hother : r.version ≠ StateRecord.currentVersion := by
      intro hsame
      rw [StateRecord.eq_encode_append_of_decode? hdecode, StateRecord.numberAt_encode_append,
        hsame] at hversion
      exact hversion rfl
    have hstored : StoredState.ofBytes? bytes = some (.otherVersion r.version) := by
      rw [StoredState.ofBytes?, hdecode]
      exact if_neg hother
    refine ⟨fun _ => ?_, fun h => absurd ⟨r, rfl⟩ h⟩
    simp only [loadState, hfile, hstored]
    rfl

/-- The tree with a state file of some bytes. -/
def treeOfState (bytes : List UInt8) : FileTree :=
  (FileTree.empty []).put ["state".toList] (.file bytes)

theorem entry_treeOfState (bytes : List UInt8) :
    (treeOfState bytes).entry "state".toList = .ok (.file bytes) :=
  rfl

/-- A whole record of the second version, and one that is cut off behind its version. -/
theorem loadState_of_otherVersion_two :
    let whole := (StateRecord.mk 2 (.initial : State Binary64) 7).encode
    (loadState (treeOfState whole) "state".toList).map StoredState.state? = .ok none ∧
      loadState (treeOfState [2, 0, 0, 0]) "state".toList = .error .notDecoded := by
  intro whole
  have hdecode := StateRecord.decode?_encode_append (.mk 2 .initial 7) []
  rw [List.append_nil] at hdecode
  have hwhole : HoldsRecord whole := (StateRecord.exists_decode?_iff _).mp ⟨_, hdecode⟩
  have hcut : ¬ HoldsRecord [2, 0, 0, 0] := fun h => absurd h.length (by decide)
  exact ⟨(loadState_of_otherVersion (entry_treeOfState whole) (by decide +kernel)).1 hwhole,
    (loadState_of_otherVersion (entry_treeOfState _) (by decide)).2 hcut⟩

/-- A file of another version does not always make the machine start afresh: it is a fault
if what stands behind the version is not of the present layout. -/
theorem other_version_starts_afresh_false :
    ¬ ∀ (t : FileTree) (path : List Char) (bytes : List UInt8),
      t.entry path = .ok (.file bytes) → 4 ≤ bytes.length →
      numberAt bytes 0 4 ≠ StateRecord.currentVersion.toNat →
      (loadState t path).map StoredState.state? = .ok none := by
  intro h
  have hload := h _ _ _ (entry_treeOfState [2, 0, 0, 0, 0, 0, 0, 0]) (by decide) (by decide)
  have hshort : StoredState.ofBytes? [2, 0, 0, 0, 0, 0, 0, 0] = none := by decide +kernel
  simp only [loadState, entry_treeOfState, hshort] at hload
  exact absurd hload (by simp [Except.map])

end NumericControl
