/-!
# Enumerations with names

The modal groups of a numerical control are small closed sets: a plane is one of
three, a motion mode one of five.  Each of their values has a lower-case name, by
which configuration files and reports call it, and a place in the order of its
set, by which a stored state calls it.  Both are given once, here, for every such
set.

## Main definitions

* `Enumerated` — a finite set listed in order, with a name for each value.
* `Enumerated.ofName?`, `Enumerated.index`, `Enumerated.ofIndex?` — the ways back
  and forth.
* `Enumerated.title` — the name written in capitalised words.

## Main results

* `Enumerated.ofIndex?_index` — a value is found again at its place.
* `Enumerated.index_of_ofIndex?` — and a place by its value, if no value is listed twice.
* `Enumerated.ofName?_name` — a value is found again by its name.
-/

namespace NumericControl

/-- A finite set of values, listed in order, each with a name of its own. -/
class Enumerated (α : Type) where
  /-- The values in order. -/
  all : List α
  /-- The lower-case name of a value, its words joined by underscores. -/
  name : α → String
  /-- Every value is listed. -/
  mem_all : ∀ a, a ∈ all
  /-- No two values share a name. -/
  name_inj : ∀ a b, name a = name b → a = b

namespace Enumerated

variable {α : Type} [Enumerated α]

/-- The value of a given name. -/
def ofName? (s : String) : Option α :=
  (all : List α).find? fun a => name a == s

/-- The place of a value in its set, counted from zero. -/
def index (a : α) : Nat :=
  (all : List α).findIdx fun b => name b == name a

/-- The value at a given place. -/
def ofIndex? (i : Nat) : Option α :=
  (all : List α)[i]?

/-- The name in capitalised words without underscores, as in `CwArc`. -/
def title (a : α) : String :=
  String.join (((name a).splitOn "_").map String.capitalize)

theorem index_lt_length (a : α) : index a < (all : List α).length :=
  List.findIdx_lt_length_of_exists ⟨a, mem_all a, by simp⟩

@[simp] theorem ofIndex?_index (a : α) : ofIndex? (index a) = some a := by
  have h := index_lt_length a
  have hn : name ((all : List α)[index a]) = name a := by
    have found : (name ((all : List α)[index a]) == name a) = true :=
      List.findIdx_getElem (p := fun b => name b == name a) (w := h)
    exact eq_of_beq found
  simp only [ofIndex?, List.getElem?_eq_getElem h, name_inj _ a hn]

theorem isSome_ofIndex?_iff (i : Nat) :
    (ofIndex? i : Option α).isSome ↔ i < (all : List α).length := by
  simp [ofIndex?]

theorem index_of_ofIndex? (hall : (all : List α).Nodup) {i : Nat} {a : α}
    (h : ofIndex? i = some a) : index a = i := by
  obtain ⟨hi, rfl⟩ := List.getElem?_eq_some_iff.mp h
  refine (List.findIdx_eq hi).mpr ⟨beq_self_eq_true _, fun j hj => ?_⟩
  -- a value of the same name before it would be the same value
  refine beq_eq_false_iff_ne.mpr fun hname => ?_
  exact List.pairwise_iff_getElem.mp hall j i (Nat.lt_trans hj hi) hi hj (name_inj _ _ hname)

@[simp] theorem ofName?_name (a : α) : ofName? (name a) = some a := by
  unfold ofName?
  obtain ⟨b, hb⟩ : ∃ b, (all : List α).find? (fun b => name b == name a) = some b := by
    rw [← Option.isSome_iff_exists, List.find?_isSome]
    exact ⟨a, mem_all a, by simp⟩
  rw [hb, name_inj b a (by simpa using List.find?_some hb)]

end Enumerated

end NumericControl
