import Mathlib.Data.List.Induction
import Mathlib.Data.List.Nodup
import Mathlib.Data.List.Perm.Subperm
import PhotoImport.Disk.Resolve
import PhotoImport.Proofs.Path.Components

/-!
# Disks that are trees

A disk is held as a list, and not every list is a tree. `Disk.Hierarchy` says what makes it one: no
two entries share a location, and what is above an entry is a folder. `Disk.Tree` is a tree of folders
and regular files, without links, and `Disk.Mounted` one with links whose names the system accepts.

A tree is known by what lies at each location. The changes that an import makes to it are described
that way, and each leaves a tree: a new entry (`entryAt?_add`, `Tree.add`), the folders on the way to
a location (`Tree.withFolder`), and a file that is moved (`Tree.relocate`).
-/

namespace PhotoImport.Disk

open Path (IsName)

/-- **A disk that is a hierarchy** of entries of any kind, links among them. -/
structure Hierarchy (d : Disk) : Prop where
  /-- No two entries are at one location. -/
  distinct : d.entries.Pairwise fun a b => a.1 ≠ b.1
  /-- The root is not listed. -/
  rootless : ∀ entry ∈ d.entries, entry.1 ≠ []
  /-- Locations are made of names. -/
  named : ∀ entry ∈ d.entries, ∀ name ∈ entry.1, IsName name
  /-- What is above an entry is a folder. -/
  folders : ∀ entry ∈ d.entries, d.isFolder entry.1.dropLast = true
  /-- Paths start from a folder. -/
  working : d.isFolder d.working = true

/-- **A disk as a system has it**: a hierarchy with names that a path can have. -/
structure Mounted (d : Disk) : Prop extends d.Hierarchy where
  /-- No name holds the byte that ends a path. -/
  noNul : ∀ entry ∈ d.entries, ∀ name ∈ entry.1, 0 ∉ name
  /-- No name is too long. -/
  short : ∀ entry ∈ d.entries, ∀ name ∈ entry.1, name.length ≤ nameLimit

/-- **A disk that is a tree** of folders and regular files. -/
structure Tree (d : Disk) : Prop where
  /-- No two entries are at one location. -/
  distinct : d.entries.Pairwise fun a b => a.1 ≠ b.1
  /-- The root is not listed. -/
  rootless : ∀ entry ∈ d.entries, entry.1 ≠ []
  /-- Locations are made of names. -/
  named : ∀ entry ∈ d.entries, ∀ name ∈ entry.1, IsName name
  /-- There are no links. -/
  linkless : ∀ entry ∈ d.entries, ∀ target, entry.2 ≠ .link target
  /-- What is above an entry is a folder. -/
  folders : ∀ entry ∈ d.entries, d.isFolder entry.1.dropLast = true
  /-- Paths start from a folder. -/
  working : d.isFolder d.working = true

theorem Tree.hierarchy {d : Disk} (h : d.Tree) : d.Hierarchy where
  distinct := h.distinct
  rootless := h.rootless
  named := h.named
  folders := h.folders
  working := h.working

variable {d d' : Disk} {l l' k old new : Location} {e : DiskEntry} {f : DiskFile}

/-! ### What lies where -/

@[simp] theorem entryAt?_nil (d : Disk) : d.entryAt? [] = some .folder := rfl

theorem isFolder_iff : d.isFolder l = true ↔ d.entryAt? l = some .folder := by
  rw [isFolder, beq_iff_eq]

@[simp] theorem isFolder_nil (d : Disk) : d.isFolder [] = true := rfl

theorem entryAt?_of_ne_nil (hl : l ≠ []) :
    d.entryAt? l = (d.entries.find? fun entry => entry.1 = l).map (·.2) := if_neg hl

theorem entryAt?_eq_none_iff (hl : l ≠ []) :
    d.entryAt? l = none ↔ ∀ entry ∈ d.entries, entry.1 ≠ l := by
  rw [entryAt?_of_ne_nil hl]
  simp

theorem ne_nil_of_entryAt? (h : d.entryAt? l = none) : l ≠ [] := by
  rintro rfl
  cases h

/-- In a list without duplicates, what lies at a location is what is listed there. -/
theorem entryAt?_iff_of_distinct (distinct : d.entries.Pairwise fun a b => a.1 ≠ b.1)
    (hl : l ≠ []) : d.entryAt? l = some e ↔ (l, e) ∈ d.entries := by
  rw [entryAt?_of_ne_nil hl, Option.map_eq_some_iff]
  constructor
  · rintro ⟨entry, hfind, rfl⟩
    obtain rfl : entry.1 = l := by simpa using List.find?_some hfind
    exact List.mem_of_find?_eq_some hfind
  · intro hmem
    refine ⟨(l, e), ?_, rfl⟩
    obtain ⟨before, after, hsplit⟩ := List.append_of_mem hmem
    rw [hsplit, List.pairwise_append] at distinct
    -- whatever is listed before lies elsewhere
    rw [hsplit, List.find?_append, List.find?_eq_none.2, Option.none_or,
      List.find?_cons_of_pos (by simp)]
    intro entry hentry
    simpa using distinct.2.2 entry hentry (l, e) List.mem_cons_self

theorem Hierarchy.entryAt?_iff (h : d.Hierarchy) (hl : l ≠ []) :
    d.entryAt? l = some e ↔ (l, e) ∈ d.entries :=
  entryAt?_iff_of_distinct h.distinct hl

theorem Tree.entryAt?_iff (h : d.Tree) (hl : l ≠ []) :
    d.entryAt? l = some e ↔ (l, e) ∈ d.entries :=
  h.hierarchy.entryAt?_iff hl

/-- In a tree there are folders and files. -/
theorem Tree.folder_or_file (h : d.Tree) (there : d.entryAt? l = some e) :
    e = .folder ∨ ∃ f, e = .file f := by
  by_cases hl : l = []
  · subst hl
    exact .inl (Option.some.inj there).symm
  · cases e with
    | folder => exact .inl rfl
    | file f => exact .inr ⟨f, rfl⟩
    | link target => exact absurd rfl (h.linkless _ ((h.entryAt?_iff hl).1 there) target)

/-- **What is above anything is a folder.** -/
theorem Hierarchy.isFolder_of_append (h : d.Hierarchy) (there : d.entryAt? (l ++ l') = some e)
    (hl' : l' ≠ []) : d.isFolder l = true := by
  induction l' using List.reverseRecOn generalizing e with
  | nil => exact absurd rfl hl'
  | append_singleton l' name ih =>
    have hne : l ++ (l' ++ [name]) ≠ [] := by simp
    have folder := h.folders _ ((h.entryAt?_iff hne).1 there)
    rw [← List.append_assoc, List.dropLast_concat] at folder
    by_cases hnil : l' = []
    · rwa [hnil, List.append_nil] at folder
    · exact ih (isFolder_iff.1 folder) hnil

theorem Tree.isFolder_of_append (h : d.Tree) (there : d.entryAt? (l ++ l') = some e)
    (hl' : l' ≠ []) : d.isFolder l = true :=
  h.hierarchy.isFolder_of_append there hl'

theorem Hierarchy.isFolder_of_prefix (h : d.Hierarchy) (folder : d.isFolder l = true)
    (hk : k <+: l) : d.isFolder k = true := by
  obtain ⟨rest, rfl⟩ := hk
  by_cases hnil : rest = []
  · rwa [hnil, List.append_nil] at folder
  · exact h.isFolder_of_append (isFolder_iff.1 folder) hnil

theorem Tree.isFolder_of_prefix (h : d.Tree) (folder : d.isFolder l = true) (hk : k <+: l) :
    d.isFolder k = true :=
  h.hierarchy.isFolder_of_prefix folder hk

/-- Only below folders there is anything. -/
theorem Tree.entryAt?_append (h : d.Tree) (noFolder : d.isFolder l = false) (hl' : l' ≠ []) :
    d.entryAt? (l ++ l') = none := by
  by_contra there
  obtain ⟨e, he⟩ := Option.ne_none_iff_exists'.1 there
  rw [h.isFolder_of_append he hl'] at noFolder
  cases noFolder

/-- What is asked of all names in the list holds for those that lead to anything. -/
theorem Hierarchy.forall_names (h : d.Hierarchy) {P : Bytes → Prop}
    (listed : ∀ entry ∈ d.entries, ∀ name ∈ entry.1, P name) (there : d.entryAt? l = some e) :
    ∀ name ∈ l, P name := by
  by_cases hl : l = []
  · simp [hl]
  · exact listed _ ((h.entryAt?_iff hl).1 there)

/-- A location of a hierarchy is made of names. -/
theorem Hierarchy.isName (h : d.Hierarchy) (there : d.entryAt? l = some e) :
    ∀ name ∈ l, IsName name :=
  h.forall_names h.named there

theorem Tree.isName (h : d.Tree) (there : d.entryAt? l = some e) : ∀ name ∈ l, IsName name :=
  h.hierarchy.isName there

/-- There are no more places where anything lies than there are entries. -/
theorem Hierarchy.length_le_of_listed (h : d.Hierarchy) {ls : List Location} (distinct : ls.Nodup)
    (listed : ∀ l ∈ ls, l ≠ [] ∧ d.entryAt? l ≠ none) : ls.length ≤ d.entries.length := by
  have hsubset : ls ⊆ d.entries.map (·.1) := by
    intro l hl
    obtain ⟨hne, there⟩ := listed l hl
    obtain ⟨e, he⟩ := Option.ne_none_iff_exists'.1 there
    exact List.mem_map.2 ⟨_, (h.entryAt?_iff hne).1 he, rfl⟩
  have := (List.subperm_of_subset distinct hsubset).length_le
  rwa [List.length_map] at this

theorem Tree.length_le_of_listed (h : d.Tree) {ls : List Location} (distinct : ls.Nodup)
    (listed : ∀ l ∈ ls, l ≠ [] ∧ d.entryAt? l ≠ none) : ls.length ≤ d.entries.length :=
  h.hierarchy.length_le_of_listed distinct listed

/-- Nothing lies deeper than there are entries. -/
theorem Hierarchy.length_le (h : d.Hierarchy) (there : d.entryAt? l = some e) :
    l.length ≤ d.entries.length := by
  -- each location on the way is that of another entry
  have listed : ∀ k ∈ (List.range l.length).map (fun n => l.take (n + 1)),
      k ≠ [] ∧ d.entryAt? k ≠ none := by
    intro k hk
    obtain ⟨n, hn, rfl⟩ := List.mem_map.1 hk
    rw [List.mem_range] at hn
    refine ⟨fun hnil => ?_, ?_⟩
    · have := congrArg List.length hnil
      rw [List.length_take, List.length_nil] at this
      omega
    · rw [← List.take_append_drop (n + 1) l] at there
      by_cases hnil : l.drop (n + 1) = []
      · rw [hnil, List.append_nil] at there
        simp [there]
      · simp [isFolder_iff.1 (h.isFolder_of_append there hnil)]
  have distinct : ((List.range l.length).map fun n => l.take (n + 1)).Nodup := by
    refine List.Nodup.map_on (fun n hn k hk same => ?_) List.nodup_range
    rw [List.mem_range] at hn hk
    have := congrArg List.length same
    rw [List.length_take, List.length_take] at this
    omega
  have := h.length_le_of_listed distinct listed
  rwa [List.length_map, List.length_range] at this

/-! ### One entry more -/

theorem entryAt?_add (free : d.entryAt? l = none) :
    (d.add l e).entryAt? k = if k = l then some e else d.entryAt? k := by
  have hl := ne_nil_of_entryAt? free
  by_cases hk : k = []
  · subst hk
    rw [if_neg (Ne.symm hl), entryAt?_nil, entryAt?_nil]
  rw [entryAt?_of_ne_nil hk, entryAt?_of_ne_nil hk, add, List.find?_append]
  by_cases same : k = l
  · subst same
    rw [entryAt?_of_ne_nil hk, Option.map_eq_none_iff] at free
    simp [free]
  · simp [same, Ne.symm same]

@[simp] theorem working_add (d : Disk) (l : Location) (e : DiskEntry) :
    (d.add l e).working = d.working := rfl

/-- **Whatever lies on the one disk** lies at the same location on the other. -/
def Kept (d d' : Disk) : Prop := ∀ k e, d.entryAt? k = some e → d'.entryAt? k = some e

theorem Kept.isFolder (kept : Kept d d') (folder : d.isFolder l = true) :
    d'.isFolder l = true :=
  isFolder_iff.2 (kept l _ (isFolder_iff.1 folder))

theorem kept_add (free : d.entryAt? l = none) (e : DiskEntry) : Kept d (d.add l e) := by
  intro k there hk
  rw [entryAt?_add free, if_neg, hk]
  rintro rfl
  rw [free] at hk
  cases hk

/-- With a new entry in one of its folders a tree is a tree. -/
theorem Tree.add (h : d.Tree) (free : d.entryAt? l = none) (named : ∀ name ∈ l, IsName name)
    (folder : d.isFolder l.dropLast = true) (noLink : ∀ target, e ≠ .link target) :
    (d.add l e).Tree := by
  have hl := ne_nil_of_entryAt? free
  have kept : Kept d (d.add l e) := kept_add free e
  refine ⟨?_, ?_, ?_, ?_, ?_, kept.isFolder h.working⟩
  · refine List.pairwise_append.2 ⟨h.distinct, List.pairwise_singleton _ _, ?_⟩
    simpa using (entryAt?_eq_none_iff hl).1 free
  all_goals
    simp only [Disk.add, List.forall_mem_append, List.forall_mem_singleton]
  · exact ⟨h.rootless, hl⟩
  · exact ⟨h.named, named⟩
  · exact ⟨h.linkless, noLink⟩
  · exact ⟨fun entry hentry => kept.isFolder (h.folders entry hentry), kept.isFolder folder⟩

/-! ### Folders on the way -/

theorem withFolder_nil (d : Disk) : d.withFolder [] = d := rfl

theorem withFolder_concat (d : Disk) (l : Location) (name : Bytes) :
    d.withFolder (l ++ [name])
      = if ((d.withFolder l).entryAt? (l ++ [name])).isSome then d.withFolder l
        else (d.withFolder l).add (l ++ [name]) .folder := by
  have ways : (List.range (l ++ [name]).length).map (fun n => (l ++ [name]).take (n + 1))
      = (List.range l.length).map (fun n => l.take (n + 1)) ++ [l ++ [name]] := by
    rw [List.length_append, List.length_singleton, List.range_succ, List.map_append,
      List.map_singleton, List.take_of_length_le (by simp)]
    congr 1
    refine List.map_congr_left fun n hn => ?_
    rw [List.take_append_of_le_length (Nat.succ_le_of_lt (List.mem_range.1 hn))]
  rw [withFolder, ways, List.foldl_append]
  rfl

@[simp] theorem working_withFolder (d : Disk) (l : Location) :
    (d.withFolder l).working = d.working := by
  induction l using List.reverseRecOn with
  | nil => rfl
  | append_singleton l name ih =>
    rw [withFolder_concat]
    split
    · exact ih
    · exact ih

/-- Where there is a folder, nothing is made. -/
theorem Tree.withFolder_eq_self (h : d.Tree) (folder : d.isFolder l = true) :
    d.withFolder l = d := by
  induction l using List.reverseRecOn with
  | nil => rfl
  | append_singleton l name ih =>
    rw [withFolder_concat, ih (h.isFolder_of_prefix folder (List.prefix_append _ _)),
      isFolder_iff.1 folder, Option.isSome_some, if_pos rfl]

/-- **With folders on the way to a location** a tree is a tree, if no file is in the way, and nothing
else has changed. -/
theorem Tree.withFolder (h : d.Tree) (named : ∀ name ∈ l, IsName name)
    (vacant : ∀ k, k <+: l → ∀ f, d.entryAt? k ≠ some (.file f)) :
    (d.withFolder l).Tree ∧
      ∀ k, (d.withFolder l).entryAt? k = if k <+: l then some .folder else d.entryAt? k := by
  induction l using List.reverseRecOn with
  | nil =>
    refine ⟨h, fun k => ?_⟩
    rw [withFolder_nil]
    split
    · next hk => rw [List.prefix_nil.1 hk, entryAt?_nil]
    · rfl
  | append_singleton l name ih =>
    obtain ⟨tree, entries⟩ := ih (fun n hn => named n (List.mem_append_left _ hn))
      fun k hk => vacant k (hk.trans (List.prefix_append _ _))
    have here : (d.withFolder l).entryAt? (l ++ [name]) = d.entryAt? (l ++ [name]) := by
      rw [entries, if_neg]
      intro hpre
      have := hpre.length_le
      rw [List.length_append, List.length_singleton] at this
      omega
    cases hentry : d.entryAt? (l ++ [name]) with
    | some e =>
      -- the last folder is there, since no file is in the way
      obtain rfl : e = .folder := (h.folder_or_file hentry).resolve_right fun ⟨f, hf⟩ =>
        vacant _ (List.prefix_refl _) f (hf ▸ hentry)
      rw [withFolder_concat, here, hentry, Option.isSome_some, if_pos rfl]
      refine ⟨tree, fun k => ?_⟩
      rw [entries]
      by_cases hk : k = l ++ [name]
      · rw [hk, if_pos (List.prefix_refl _), hentry, ite_self]
      · simp [List.prefix_concat_iff, hk]
    | none =>
      have free : (d.withFolder l).entryAt? (l ++ [name]) = none := here.trans hentry
      rw [withFolder_concat, free, if_neg (by simp)]
      refine ⟨tree.add free named ?_ (by simp), fun k => ?_⟩
      · rw [List.dropLast_concat, isFolder_iff, entries, if_pos (List.prefix_refl _)]
      · rw [entryAt?_add free, entries]
        by_cases hk : k = l ++ [name]
        · rw [if_pos hk, if_pos (hk ▸ List.prefix_refl _)]
        · simp [List.prefix_concat_iff, hk]

/-! ### A file that is moved -/

/-- A tree with a file at another location. -/
theorem Tree.entries_relocate (h : d.Tree) (file : d.entryAt? old = some (.file f)) :
    (d.relocate old new).entries
      = d.entries.map fun entry => if entry.1 = old then (new, entry.2) else entry := by
  refine List.map_congr_left fun entry hentry => ?_
  by_cases same : entry.1 = old
  · simp [same]
  · -- nothing is below a file
    have apart : old.isPrefixOf entry.1 = false := by
      rw [Bool.eq_false_iff, ne_eq, List.isPrefixOf_iff_prefix]
      rintro ⟨rest, hrest⟩
      have hne : rest ≠ [] := by
        rintro rfl
        exact same (by rw [← hrest, List.append_nil])
      have there := (h.entryAt?_iff (h.rootless entry hentry)).2 hentry
      rw [← hrest] at there
      rw [isFolder_iff.1 (h.isFolder_of_append there hne)] at file
      cases file
    simp [same, apart]

theorem Tree.mem_relocate (h : d.Tree) (file : d.entryAt? old = some (.file f)) (hold : old ≠ [])
    {entry : Location × DiskEntry} :
    entry ∈ (d.relocate old new).entries ↔
      entry = (new, .file f) ∨ (entry.1 ≠ old ∧ entry ∈ d.entries) := by
  rw [h.entries_relocate file, List.mem_map]
  have hmem := (h.entryAt?_iff hold).1 file
  constructor
  · rintro ⟨⟨l, e⟩, hentry', rfl⟩
    by_cases same : l = old
    · -- there is one entry at the old location
      subst same
      have there := (h.entryAt?_iff hold).2 hentry'
      obtain rfl : e = .file f := Option.some.inj (there.symm.trans file)
      exact .inl (if_pos rfl)
    · rw [if_neg same]
      exact .inr ⟨same, hentry'⟩
  · rintro (rfl | ⟨apart, hentry⟩)
    · exact ⟨_, hmem, if_pos rfl⟩
    · exact ⟨entry, hentry, if_neg apart⟩

/-- **A tree with a file moved** to a free name in one of its folders is a tree, and nothing else has
changed. -/
theorem Tree.relocate (h : d.Tree) (file : d.entryAt? old = some (.file f))
    (free : d.entryAt? new = none) (named : ∀ name ∈ new, IsName name)
    (folder : d.isFolder new.dropLast = true) :
    (d.relocate old new).Tree ∧
      ∀ k, (d.relocate old new).entryAt? k
        = if k = new then some (.file f) else if k = old then none else d.entryAt? k := by
  have hold : old ≠ [] := by
    rintro rfl
    cases file
  have hnew := ne_nil_of_entryAt? free
  have distinct : (d.relocate old new).entries.Pairwise fun a b => a.1 ≠ b.1 := by
    rw [h.entries_relocate file, List.pairwise_map]
    refine h.distinct.imp_of_mem fun {a b} ha hb apart => ?_
    have unused := (entryAt?_eq_none_iff hnew).1 free
    by_cases hao : a.1 = old
    · rw [if_pos hao, if_neg fun hbo => apart (hao.trans hbo.symm)]
      exact (unused b hb).symm
    · rw [if_neg hao]
      split
      · exact unused a ha
      · exact apart
  have entries : ∀ k, (d.relocate old new).entryAt? k
      = if k = new then some (.file f) else if k = old then none else d.entryAt? k := by
    intro k
    by_cases hk : k = []
    · subst hk
      rw [if_neg (Ne.symm hnew), if_neg (Ne.symm hold)]
      rfl
    ext e
    rw [entryAt?_iff_of_distinct distinct hk, h.mem_relocate file hold]
    by_cases hkn : k = new
    · -- nothing was listed at the new location before
      subst hkn
      have unused := (entryAt?_eq_none_iff hnew).1 free
      rw [if_pos rfl, or_iff_left fun hmem => unused _ hmem.2 rfl, Prod.mk.injEq,
        Option.some.injEq, eq_comm (a := e)]
      simp
    · by_cases hko : k = old
      · subst hko
        simp [hkn]
      · simp [hkn, hko, h.entryAt?_iff hk]
  have kept : ∀ k, d.isFolder k = true → (d.relocate old new).isFolder k = true := by
    intro k hk
    rw [isFolder_iff] at hk ⊢
    rw [entries, if_neg, if_neg, hk]
    · rintro rfl
      rw [hk] at file
      cases file
    · rintro rfl
      rw [free] at hk
      cases hk
  refine ⟨⟨distinct, ?_, ?_, ?_, ?_, kept _ h.working⟩, entries⟩
  all_goals
    intro entry hentry
    obtain rfl | ⟨-, hentry⟩ := (h.mem_relocate file hold).1 hentry
  · exact hnew
  · exact h.rootless entry hentry
  · exact named
  · exact h.named entry hentry
  · exact nofun
  · exact h.linkless entry hentry
  · exact kept _ folder
  · exact kept _ (h.folders entry hentry)

end PhotoImport.Disk
