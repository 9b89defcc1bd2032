import PhotoImport.Proofs.Disk.SameTree

/-!
# The tree of a disk, held in memory

For every tree on a disk there is a memory that holds it: `Disk.Tree.held` has each file under the
path that its names spell, and each folder, as far as paths lead to them.
-/

namespace PhotoImport

open Path (Leads Same IsName spelled)

namespace Disk

variable {d : Disk} {rooted : Bool} {l : Location} {names : List Bytes} {e : DiskEntry}
  {f : DiskFile}

/-- The names that lead to a location from where paths start. -/
def below? (d : Disk) (rooted : Bool) (l : Location) : Option (List Bytes) :=
  if d.base rooted <+: l then some (l.drop (d.base rooted).length) else none

theorem below?_eq_some_iff : d.below? rooted l = some names ↔ l = d.base rooted ++ names := by
  unfold below?
  constructor
  · intro h
    split at h
    · next hpre =>
      obtain ⟨rest, rfl⟩ := hpre
      cases h
      rw [List.drop_left]
    · cases h
  · rintro rfl
    rw [if_pos (List.prefix_append _ _), List.drop_left]

/-- A file of a disk as it is held in memory. -/
def stored (f : DiskFile) : StoredFile where
  data := f.data
  created := f.created
  modified := f.modified

/-- An entry that is a file, under the path of its names. -/
def heldFile? (d : Disk) (rooted : Bool) (entry : Location × DiskEntry) :
    Option (Path × StoredFile) :=
  match entry.2 with
  | .file f => (d.below? rooted entry.1).map fun names =>
      (spelled rooted names, stored f)
  | _ => none

/-- The path of an entry that is a folder. The folder that relative paths start from has none. -/
def heldDir? (d : Disk) (rooted : Bool) (entry : Location × DiskEntry) : Option Path :=
  match entry.2 with
  | .folder => (d.below? rooted entry.1).bind fun names =>
      if names = [] then none else some (spelled rooted names)
  | _ => none

theorem heldFile?_eq_some_iff {entry : Location × DiskEntry} {held : Path × StoredFile} :
    d.heldFile? rooted entry = some held ↔ ∃ names f, entry = (d.base rooted ++ names, .file f) ∧
      held = (spelled rooted names, stored f) := by
  obtain ⟨l, e⟩ := entry
  cases e with
  | file f => simp [heldFile?, below?_eq_some_iff, @eq_comm _ held]
  | _ => simp [heldFile?]

theorem heldDir?_eq_some_iff {entry : Location × DiskEntry} {p : Path} :
    d.heldDir? rooted entry = some p ↔ ∃ names, entry = (d.base rooted ++ names, .folder) ∧
      names ≠ [] ∧ p = spelled rooted names := by
  obtain ⟨l, e⟩ := entry
  cases e with
  | folder => simp [heldDir?, Option.bind_eq_some_iff, below?_eq_some_iff, @eq_comm _ p]
  | _ => simp [heldDir?]

/-- The paths that are folders in memory: those of the entries that are, and the root. -/
def heldDirs (d : Disk) (rooted : Bool) : List Path :=
  (if rooted then [spelled true []] else []) ++ d.entries.filterMap (d.heldDir? rooted)

section Held

variable (h : d.Tree)

include h

theorem Tree.leads_spelled (hl : (d.base rooted ++ names, e) ∈ d.entries) :
    Leads rooted (spelled rooted names) names :=
  Path.leads_spelled fun name hname => h.named _ hl name (List.mem_append_right _ hname)

/-- A path that is a folder in memory leads to one. -/
theorem Tree.leads_of_mem_heldDirs {p : Path} (hp : p ∈ d.heldDirs rooted) :
    p ≠ Path.empty ∧ ∃ names, Leads rooted p names ∧ d.isFolder (d.base rooted ++ names) = true := by
  rcases List.mem_append.1 hp with hp | hp
  · cases rooted with
    | false => cases hp
    | true =>
      obtain rfl := List.mem_singleton.1 hp
      exact ⟨by decide, [], Path.leads_spelled (by simp), by simpa using h.isFolder_base true⟩
  · obtain ⟨entry, hentry, hheld⟩ := List.mem_filterMap.1 hp
    obtain ⟨names, rfl, hne, rfl⟩ := heldDir?_eq_some_iff.1 hheld
    have hleads := h.leads_spelled hentry
    refine ⟨mt hleads.eq_empty_iff.1 (by simp [hne]), names, hleads, isFolder_iff.2 ?_⟩
    exact (h.entryAt?_iff (by simp [hne])).2 hentry

theorem Tree.distinct_heldFiles :
    (d.entries.filterMap (d.heldFile? rooted)).Pairwise fun a b => ¬ Same a.1 b.1 := by
  refine List.Pairwise.filterMap _ (fun a a' apart b hb b' hb' same => ?_)
    (h.distinct.imp_of_mem (S := fun a a' => a ∈ d.entries ∧ a' ∈ d.entries ∧ a.1 ≠ a'.1)
      fun ha ha' apart => ⟨ha, ha', apart⟩)
  obtain ⟨names, f, rfl, rfl⟩ := heldFile?_eq_some_iff.1 hb
  obtain ⟨names', f', rfl, rfl⟩ := heldFile?_eq_some_iff.1 hb'
  -- at one place they would be at one location
  have := ((h.leads_spelled apart.1).same_iff (h.leads_spelled apart.2.1)).1 same
  exact apart.2.2 (by rw [this])

theorem Tree.distinct_heldDirs : (d.heldDirs rooted).Pairwise fun p q => ¬ Same p q := by
  refine List.pairwise_append.2 ⟨by cases rooted <;> simp, ?_, fun p hp q hq same => ?_⟩
  · refine List.Pairwise.filterMap _ (fun a a' apart b hb b' hb' same => ?_)
      (h.distinct.imp_of_mem (S := fun a a' => a ∈ d.entries ∧ a' ∈ d.entries ∧ a.1 ≠ a'.1)
        fun ha ha' apart => ⟨ha, ha', apart⟩)
    obtain ⟨names, rfl, -, rfl⟩ := heldDir?_eq_some_iff.1 hb
    obtain ⟨names', rfl, -, rfl⟩ := heldDir?_eq_some_iff.1 hb'
    have := ((h.leads_spelled apart.1).same_iff (h.leads_spelled apart.2.1)).1 same
    exact apart.2.2 (by rw [this])
  · -- the root is no entry
    cases rooted with
    | false => cases hp
    | true =>
      rw [if_pos rfl, List.mem_singleton] at hp
      obtain ⟨entry, hentry, hheld⟩ := List.mem_filterMap.1 hq
      obtain ⟨names, rfl, hne, rfl⟩ := heldDir?_eq_some_iff.1 hheld
      subst hp
      have leads := (h.leads_spelled hentry).of_same same.symm
      exact hne ((Path.leads_spelled (by simp)).unique leads).symm

end Held

/-- **The memory that holds the tree of a disk.** -/
def Tree.held (h : d.Tree) (rooted : Bool) : Memory where
  files := d.entries.filterMap (d.heldFile? rooted)
  dirs := d.heldDirs rooted
  files_distinct := h.distinct_heldFiles
  dirs_distinct := h.distinct_heldDirs
  empty_notMem_dirs := fun hempty => (h.leads_of_mem_heldDirs hempty).1 rfl

variable (h : d.Tree)

end Disk
end PhotoImport
