import PhotoImport.Path.Basic

/-!
# The order of paths is total

Paths are compared by their steps. The comparison is oriented and transitive, so that sorting by it
makes sense, and it finds no difference exactly between two spellings of one place
(`compare_eq_iff_same`).

Byte strings and lists of steps are compared in dictionary order, so both comparisons inherit their
laws from those of a single byte and a single step. Two steps are compared by their kinds first
(`Component.rank`).
-/

namespace PhotoImport.Path

open Std

theorem compareBytes_eq_compareLex :
    compareBytes = List.compareLex (Ord.compare (α := UInt8)) := by
  funext as bs
  induction as generalizing bs with
  | nil => cases bs <;> rfl
  | cons a as ih =>
    cases bs with
    | nil => rfl
    | cons b bs =>
      rw [List.compareLex_cons_cons, compareBytes, ih]
      by_cases hlt : a < b
      · rw [if_pos hlt, compare_eq_lt.2 hlt]; rfl
      · by_cases hgt : b < a
        · rw [if_neg hlt, if_pos hgt, compare_eq_gt.2 hgt]; rfl
        · -- neither byte is less, so the rest decides
          obtain rfl : a = b := UInt8.le_antisymm (UInt8.not_lt.1 hgt) (UInt8.not_lt.1 hlt)
          rw [if_neg hlt, if_neg hgt, compare_self]; rfl

instance : TransCmp compareBytes := by
  rw [compareBytes_eq_compareLex]
  infer_instance

instance : LawfulEqCmp compareBytes := by
  rw [compareBytes_eq_compareLex]
  infer_instance

/-- The place of the kinds of steps in their order. -/
def Component.rank : Component → Nat
  | .root => 0
  | .here => 1
  | .up => 2
  | .normal _ => 3

/-- The name that a step goes to, nothing for a step of another kind. -/
def Component.name : Component → Bytes
  | .normal name => name
  | _ => []

/-- Two steps compare by their kinds, and names by their bytes. -/
theorem Component.compare_eq_compareLex :
    Component.compare = compareLex (compareOn Component.rank)
      fun a b => compareBytes a.name b.name := by
  funext a b
  cases a <;> cases b <;> rfl

instance : TransCmp fun a b : Component => compareBytes a.name b.name where
  eq_swap := (inferInstance : OrientedCmp compareBytes).eq_swap
  isLE_trans := (inferInstance : TransCmp compareBytes).isLE_trans

instance : TransCmp Component.compare := by
  rw [Component.compare_eq_compareLex]
  infer_instance

instance : LawfulEqCmp Component.compare where
  compare_self := (inferInstance : ReflCmp Component.compare).compare_self
  eq_of_compare {a b} h := by
    rw [Component.compare_eq_compareLex, compareLex_eq_eq] at h
    obtain ⟨hrank, hname⟩ := h
    have hrank : a.rank = b.rank := Std.compare_eq_iff_eq.1 hrank
    have hname : a.name = b.name := (inferInstance : LawfulEqCmp compareBytes).eq_of_compare hname
    -- of one kind there is one step, or one for each name
    cases a <;> cases b <;> cases hrank
    · rfl
    · rfl
    · rfl
    · exact congrArg _ hname

theorem compareComponents_eq_compareLex :
    compareComponents = List.compareLex Component.compare := by
  funext as bs
  induction as generalizing bs with
  | nil => cases bs <;> rfl
  | cons a as ih =>
    cases bs with
    | nil => rfl
    | cons b bs => rw [List.compareLex_cons_cons, compareComponents, ih]

instance : TransCmp compareComponents := by
  rw [compareComponents_eq_compareLex]
  infer_instance

instance : LawfulEqCmp compareComponents := by
  rw [compareComponents_eq_compareLex]
  infer_instance

instance : TransCmp Path.compare where
  eq_swap := (inferInstance : OrientedCmp compareComponents).eq_swap
  isLE_trans := (inferInstance : TransCmp compareComponents).isLE_trans

/-- **No difference** is found exactly between spellings of one place. -/
theorem compare_eq_iff_same {p q : Path} : p.compare q = .eq ↔ Same p q :=
  (inferInstance : LawfulEqCmp compareComponents).compare_eq_iff_eq

end PhotoImport.Path
