import Mathlib.Data.List.Forall2
import PhotoImport.Proofs.Path.Components
import PhotoImport.Proofs.Storage.Memory

/-!
# What an import finds

`Wanted` says of a path, by its steps alone, that an import from a folder is to take the file there.
What is found in a store in memory are the files at wanted paths, each once (`forall₂_find`). What
is said of a found file leads back to it: its full path names the place where it is stored, and its
path below the folder is made of names (`Found`).
-/

namespace PhotoImport

open Path (Same Component Plain)

/-- **Wanted paths.** A file is to be taken if it lies below the folder, every step below the folder
is visible, it is in the folder itself unless all folders below are to be searched, and it passes
the filter. -/
def Wanted (root : Path) (filter : MediaFilter) (recursive : Bool) (p : Path) : Prop :=
  ∃ below, below ≠ [] ∧ p.components = root.components ++ below ∧
    (∀ step ∈ below, step.isHidden = false) ∧ (recursive = true ∨ below.length = 1) ∧
      filter.passes p = true

instance (root : Path) (filter : MediaFilter) (recursive : Bool) (p : Path) :
    Decidable (Wanted root filter recursive p) :=
  let below := p.components.drop root.components.length
  decidable_of_iff
    (below ≠ [] ∧ p.components = root.components ++ below ∧
      (∀ step ∈ below, step.isHidden = false) ∧ (recursive = true ∨ below.length = 1) ∧
        filter.passes p = true)
    ⟨fun h => ⟨below, h⟩, fun ⟨steps, h⟩ => by
      have hsteps : below = steps := by simp only [below, h.2.1, List.drop_left]
      exact hsteps ▸ h⟩

/-- **What is said of a found file** leads back to the path where it is. -/
structure Found (p : Path) (f : SourceFile) : Prop where
  /-- Its full path is that path. -/
  absolute : Same f.absolute p
  /-- Its path below the folder is made of names. -/
  plain : Plain f.path.components
  /-- There is a path below the folder. -/
  nonempty : f.path ≠ Path.empty

namespace Memory

variable {root p below : Path} {filter : MediaFilter} {recursive : Bool}
  {entry : Path × StoredFile}

/-- What lies below a folder and is visible is made of names: only a hidden step leads up, and a
path starts only once. -/
theorem plain_below (hroot : root ≠ Path.empty)
    (hsteps : p.components = root.components ++ below.components)
    (visible : ∀ step ∈ below.components, step.isHidden = false) : Plain below.components := by
  intro step hstep
  obtain ⟨first, others, hfirst⟩ :=
    List.exists_cons_of_ne_nil (mt Path.components_eq_nil_iff.1 hroot)
  -- behind a base that is not empty no step is the first of the path
  have htail : step ∈ p.components.tail := by
    rw [hsteps, hfirst]
    exact List.mem_append_right _ hstep
  rcases Path.tail_components htail with rfl | name
  · exact absurd (visible _ hstep) (by decide)
  · exact name

/-- **A file is a candidate if it is wanted.** -/
theorem candidate?_cases (hroot : root ≠ Path.empty) (apart : ¬ Same entry.1 root) :
    (Wanted root filter recursive entry.1 ∧
        ∃ f, candidate? root filter recursive entry = some f ∧ Found entry.1 f) ∨
      (¬ Wanted root filter recursive entry.1 ∧
        candidate? root filter recursive entry = none) := by
  cases hstrip : entry.1.stripBase? root with
  | none =>
    refine .inr ⟨?_, by simp [candidate?, hstrip]⟩
    rintro ⟨below, -, hsteps, -⟩
    exact Path.stripBase?_eq_none_iff.1 hstrip (hsteps ▸ List.prefix_append _ _)
  | some below =>
    have hsteps := Path.components_stripBase? hroot hstrip
    have hne : below.components ≠ [] := by
      -- with no steps below the folder the file would be where the folder is
      intro hnil
      rw [hnil, List.append_nil] at hsteps
      exact apart hsteps
    have visible_iff : isVisible below = true ↔
        ∀ step ∈ below.components, step.isHidden = false := by simp [isVisible]
    by_cases h : isVisible below = true ∧ (recursive = true ∨ below.components.length = 1) ∧
        filter.passes entry.1 = true
    · have plain := plain_below hroot hsteps (visible_iff.1 h.1)
      refine .inl ⟨⟨below.components, hne, hsteps, visible_iff.1 h.1, h.2⟩,
        { SourceFile.under root below with
          created := entry.2.created, modified := entry.2.modified }, ?_, ?_, plain, ?_⟩
      · simp [candidate?, hstrip, h]
      · exact (Path.components_join_plain root plain).trans hsteps.symm
      · exact mt Path.components_eq_nil_iff.2 hne
    · refine .inr ⟨?_, by simp [candidate?, hstrip, h]⟩
      rintro ⟨steps, -, hsteps', visible, rest⟩
      -- there is only one way to go on from the folder to the file
      have : below.components = steps := List.append_cancel_left (hsteps.symm.trans hsteps')
      exact h ⟨visible_iff.2 (this ▸ visible), this ▸ rest⟩

/-- The files of a store that are wanted. -/
def wanted (m : Memory) (root : Path) (filter : MediaFilter) (recursive : Bool) :
    List (Path × StoredFile) :=
  m.files.filter fun entry => decide (Wanted root filter recursive entry.1)

/-- **What is found are the wanted files**, each once and in order. -/
theorem forall₂_candidates (hroot : root ≠ Path.empty) (files : List (Path × StoredFile))
    (apart : ∀ entry ∈ files, ¬ Same entry.1 root) :
    List.Forall₂ (fun f entry => Found entry.1 f)
      (files.filterMap (candidate? root filter recursive))
      (files.filter fun entry => decide (Wanted root filter recursive entry.1)) := by
  induction files with
  | nil => exact .nil
  | cons entry files ih =>
    rw [List.forall_mem_cons] at apart
    rcases candidate?_cases hroot apart.1 with ⟨yes, f, candidate, found⟩ | ⟨no, candidate⟩
    · rw [List.filterMap_cons_some candidate, List.filter_cons_of_pos (by simpa using yes)]
      exact .cons found (ih apart.2)
    · rw [List.filterMap_cons_none candidate, List.filter_cons_of_neg (by simpa using no)]
      exact ih apart.2

theorem ne_empty_of_isDir {m : Memory} (h : m.isDir p = true) : p ≠ Path.empty := by
  rintro rfl
  obtain ⟨q, hq, same⟩ := hasPath_iff.1 h
  exact m.empty_notMem_dirs (same.eq_empty_iff.2 rfl ▸ hq)

/-- **Finding** below a folder where no file is. -/
theorem forall₂_find (filter : MediaFilter) (recursive : Bool) {m : Memory}
    (folder : m.isDir root = true) (vacant : m.file? root = none) :
    ∃ files, m.find root filter recursive = .ok files ∧
      List.Forall₂ (fun f entry => Found entry.1 f) files (m.wanted root filter recursive) := by
  refine ⟨_, by rw [find, if_pos folder], ?_⟩
  exact forall₂_candidates (ne_empty_of_isDir folder) m.files (file?_eq_none_iff.1 vacant)

theorem isDir_of_find {m : Memory} {files : List SourceFile}
    (h : m.find root filter recursive = .ok files) : m.isDir root = true := by
  unfold find at h
  split at h
  · assumption
  · cases h

/-- A file that is found has the path that is left of its own below the folder. -/
theorem stripBase?_of_candidate? {f : SourceFile}
    (h : candidate? root filter recursive entry = some f) :
    entry.1.stripBase? root = some f.path := by
  unfold candidate? at h
  obtain ⟨below, hstrip, h⟩ := Option.bind_eq_some_iff.1 h
  split at h
  · cases h
    exact hstrip
  · cases h

theorem components_of_candidate? (hroot : root ≠ Path.empty) {f : SourceFile}
    (h : candidate? root filter recursive entry = some f) :
    entry.1.components = root.components ++ f.path.components :=
  Path.components_stripBase? hroot (stripBase?_of_candidate? h)

/-- **What is found has paths of its own.** -/
theorem pairwise_find {m : Memory} {files : List SourceFile}
    (h : m.find root filter recursive = .ok files) :
    files.Pairwise fun f g => f.path ≠ g.path := by
  unfold find at h
  split at h
  · next folder =>
    cases h
    refine m.files_distinct.filterMap _ fun a b apart f hf g hg same => apart ?_
    -- two files at one path below the folder are at one place
    have hroot := ne_empty_of_isDir folder
    rw [Same, components_of_candidate? hroot hf, components_of_candidate? hroot hg, same]
  · cases h

end Memory
end PhotoImport
