import PhotoImport.Import.Plan
import PhotoImport.Proofs.Path.Order
import PhotoImport.Proofs.Path.Spelling

/-!
# The order of a batch

Files whose paths differ have one order, whatever order they come in:

* `before_of_precedes` — of two files with different paths, the one that does not come after the
  other comes before it, since paths that read alike and name one place are equal;
* `pairwise_before_mergeSort` — so sorting leaves no ties;
* `eq_of_perm_of_before` — and no two orders without ties have the same elements.

A batch is sorted together with its metadata, so all of this is said of files that carry something.
-/

namespace PhotoImport

open Std

/-- **Coming before**: the path of the one file reads less than that of the other, or they read
alike and the one path is less. -/
def SourceFile.Before (f g : SourceFile) : Prop :=
  f.identity < g.identity ∨ (f.identity = g.identity ∧ f.path.compare g.path = .lt)

namespace Plan

/-- How two files of a batch compare. -/
def order (f g : SourceFile) : Ordering :=
  (compare f.identity g.identity).then (f.path.compare g.path)

theorem precedes_eq_isLE (a b : SourceFile × Values) : precedes a b = (order a.1 b.1).isLE := rfl

instance : TransCmp fun f g : SourceFile => f.path.compare g.path where
  eq_swap := (inferInstance : OrientedCmp Path.compare).eq_swap
  isLE_trans := (inferInstance : TransCmp Path.compare).isLE_trans

instance : TransCmp order :=
  inferInstanceAs (TransCmp
    (compareLex (compareOn SourceFile.identity) fun f g : SourceFile => f.path.compare g.path))

theorem order_eq_lt_iff {f g : SourceFile} : order f g = .lt ↔ f.Before g := by
  have hlt : compare f.identity g.identity = .lt ↔ f.identity < g.identity :=
    compareOfLessAndEq_eq_lt
  have heq : compare f.identity g.identity = .eq ↔ f.identity = g.identity :=
    (inferInstance : LawfulEqCmp (compare : String → String → Ordering)).compare_eq_iff_eq
  unfold order SourceFile.Before
  rw [Ordering.then_eq_lt, hlt, heq]

/-- Two files compare as equal only if their paths are spelled alike. -/
theorem path_eq_of_order_eq {f g : SourceFile} (h : order f g = .eq) : f.path = g.path := by
  obtain ⟨hidentity, hpath⟩ := Ordering.then_eq_eq.1 h
  -- an identity is the text of a path, so the paths read alike and name one place
  have hdisplay : f.path.display = g.path.display :=
    (inferInstance : LawfulEqCmp (compare : String → String → Ordering)).compare_eq_iff_eq.1
      hidentity
  exact Path.eq_of_display_eq_of_same hdisplay (Path.compare_eq_iff_same.1 hpath)

theorem before_of_precedes {a b : SourceFile × Values} (h : precedes a b = true)
    (hne : a.1.path ≠ b.1.path) : a.1.Before b.1 := by
  rw [precedes_eq_isLE] at h
  cases hord : order a.1 b.1 with
  | lt => exact order_eq_lt_iff.1 hord
  | eq => exact absurd (path_eq_of_order_eq hord) hne
  | gt => rw [hord] at h; cases h

theorem not_before_of_before {f g : SourceFile} (h : f.Before g) : ¬ g.Before f := by
  intro h'
  have hlt := order_eq_lt_iff.2 h
  rw [(inferInstance : OrientedCmp order).eq_swap, order_eq_lt_iff.2 h'] at hlt
  cases hlt

theorem precedes_trans (a b c : SourceFile × Values) (hab : precedes a b = true)
    (hbc : precedes b c = true) : precedes a c = true :=
  (inferInstance : TransCmp order).isLE_trans hab hbc

theorem precedes_total (a b : SourceFile × Values) : (precedes a b || precedes b a) = true := by
  rw [precedes_eq_isLE, precedes_eq_isLE,
    (inferInstance : OrientedCmp order).eq_swap (a := b.1) (b := a.1)]
  cases order a.1 b.1 <;> rfl

/-- **Sorting leaves no ties** among files with different paths. -/
theorem pairwise_before_mergeSort {entries : List (SourceFile × Values)}
    (h : entries.Pairwise fun a b => a.1.path ≠ b.1.path) :
    (entries.mergeSort precedes).Pairwise fun a b => a.1.Before b.1 := by
  have sorted := List.pairwise_mergeSort precedes_trans precedes_total entries
  have distinct : (entries.mergeSort precedes).Pairwise fun a b => a.1.path ≠ b.1.path :=
    (List.mergeSort_perm entries precedes).symm.pairwise h fun hne => hne.symm
  -- of files that differ in their paths, the one that does not come after comes before
  exact sorted.imp₂ (fun _ _ => before_of_precedes) distinct

/-- **No two orders without ties** have the same elements. -/
theorem eq_of_perm_of_before {as bs : List (SourceFile × Values)} (hperm : as.Perm bs)
    (has : as.Pairwise fun a b => a.1.Before b.1) (hbs : bs.Pairwise fun a b => a.1.Before b.1) :
    as = bs :=
  hperm.eq_of_pairwise (fun _ _ _ _ hab hba => absurd hba (not_before_of_before hab)) has hbs

/-- A batch is sorted to the same list from wherever its files stand. -/
theorem mergeSort_eq_of_perm {as bs : List (SourceFile × Values)} (hperm : as.Perm bs)
    (h : as.Pairwise fun a b => a.1.path ≠ b.1.path) :
    as.mergeSort precedes = bs.mergeSort precedes := by
  have h' : bs.Pairwise fun a b => a.1.path ≠ b.1.path := hperm.pairwise h fun hne => hne.symm
  refine eq_of_perm_of_before ?_ (pairwise_before_mergeSort h) (pairwise_before_mergeSort h')
  exact (List.mergeSort_perm as precedes).trans
    (hperm.trans (List.mergeSort_perm bs precedes).symm)

end Plan
end PhotoImport
