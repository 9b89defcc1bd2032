import PhotoImport.Proofs.Disk.Find
import PhotoImport.Proofs.Import.Runs
import PhotoImport.Proofs.Import.SameBatch
import PhotoImport.Proofs.Storage.Find

/-!
# What is found and planned on a disk and in memory

A disk and a memory with one tree find the same files, but not in one order, and each with the dates
that it knows (`SameTree.find_cases`). A walk along folders spells the path of a file by its names; a
memory keeps the spelling that a file was put under, so that what it finds is asked to be spelled so
(`SourceFile.Spelled`). If a template does not name the dates of a file then planning may end with
the same for both (`Plan.mayEnd_iff`), and what is planned leads by names from the roots, so that a
batch on a disk can carry it out (`Plan.aims_of_mem_ruledPlan`).
-/

namespace PhotoImport

open Path (Leads Same IsName spelled)

/-- Whether a file passes is said by its name alone. -/
theorem MediaFilter.passes_congr (filter : MediaFilter) {p q : Path} (same : Same p q) :
    filter.passes p = filter.passes q := by
  have named : p.fileName? = q.fileName? := by rw [Path.fileName?, Path.fileName?, same]
  rw [passes, passes, MediaKind.ofPath, MediaKind.ofPath, Path.extension?, Path.extension?, named]

/-- **A file whose path its names spell**: they are joined by single slashes, and nothing else is in
the path. -/
def SourceFile.Spelled (f : SourceFile) : Prop :=
  ∃ names, (∀ name ∈ names, IsName name) ∧ f.path = Path.ofNames names

section Find

variable {rooted recursive : Bool} {d : Disk} {m : Memory} {root : Path} {filter : MediaFilter}
  {rnames names : List Bytes} {entry : Path × StoredFile}

/-- What is found in memory at a place that names lead to, below a root. How the path of the file
is spelled is left open. -/
theorem Memory.exists_candidate?_eq (hroot : Leads rooted root rnames) (hne : root ≠ Path.empty)
    (hentry : Leads rooted entry.1 (rnames ++ names)) :
    ∃ below, below.components = names.map .normal ∧ candidate? root filter recursive entry
      = if ((∀ name ∈ names, name.head? ≠ some Path.dot) ∧
            (recursive = true ∨ names.length = 1)) ∧ filter.passes (root.along names) = true then
          some { SourceFile.under root below with
            created := entry.2.created, modified := entry.2.modified }
        else none := by
  have hsteps : entry.1.components = root.components ++ names.map .normal := by
    rw [hentry, hroot, Path.stepsTo_append]
  obtain ⟨below, hstrip⟩ : ∃ below, entry.1.stripBase? root = some below := by
    refine Option.ne_none_iff_exists'.1 fun absent => Path.stripBase?_eq_none_iff.1 absent ?_
    exact hsteps ▸ List.prefix_append _ _
  have hbelow : below.components = names.map .normal :=
    List.append_cancel_left ((Path.components_stripBase? hne hstrip).symm.trans hsteps)
  have isName : ∀ name ∈ names, IsName name := fun name hname =>
    hentry.isName name (List.mem_append_right _ hname)
  have passes : filter.passes entry.1 = filter.passes (root.along names) :=
    filter.passes_congr (hentry.same (hroot.along isName))
  have visible : isVisible below = true ↔ ∀ name ∈ names, name.head? ≠ some Path.dot := by
    simp [isVisible, hbelow, Path.Component.isHidden]
  refine ⟨below, hbelow, ?_⟩
  unfold candidate?
  simp only [hstrip, Option.bind_eq_bind, Option.bind_some, visible, hbelow, List.length_map,
    passes, and_assoc]

/-- **What is found in memory** at a place that names lead to, below a root, but for its dates, if
its path is spelled by names. -/
theorem Memory.candidate?_undated (hroot : Leads rooted root rnames) (hne : root ≠ Path.empty)
    (hentry : Leads rooted entry.1 (rnames ++ names))
    (spelt : ∀ f, candidate? root filter recursive entry = some f → f.Spelled) :
    (candidate? root filter recursive entry).map SourceFile.undated
      = if (∀ name ∈ names, name.head? ≠ some Path.dot) ∧ (recursive = true ∨ names.length = 1) then
          Disk.wantedAt filter root names else none := by
  obtain ⟨below, hbelow, candidate⟩ := exists_candidate?_eq hroot hne hentry
  rw [candidate] at spelt ⊢
  unfold Disk.wantedAt
  by_cases seen :
    (∀ name ∈ names, name.head? ≠ some Path.dot) ∧ (recursive = true ∨ names.length = 1)
  · by_cases pass : filter.passes (root.along names) = true
    · rw [if_pos ⟨seen, pass⟩] at spelt ⊢
      rw [if_pos seen, if_pos pass]
      -- of the spellings of one place, only one is that of its names
      obtain ⟨others, isName, spells⟩ := spelt _ rfl
      obtain rfl : below = Path.ofNames others := spells
      rw [Path.components_ofNames isName] at hbelow
      obtain rfl := List.map_injective_iff.2 (fun _ _ => Path.Component.normal.inj) hbelow
      rfl
    · rw [if_neg fun all => pass all.2, if_pos seen, if_neg pass]
      rfl
  · rw [if_neg fun all => seen all.1, if_neg seen]
    rfl

/-- A file in memory below a root is at a path of names, the first of which lead to the root. -/
theorem Memory.exists_names_of_candidate? (hroot : Leads rooted root rnames)
    (hne : root ≠ Path.empty)
    {f : SourceFile} (hentry : ∃ names, Leads rooted entry.1 names)
    (h : candidate? root filter recursive entry = some f) :
    ∃ names, Leads rooted entry.1 (rnames ++ names) := by
  obtain ⟨all, hall⟩ := hentry
  have hpre : Path.stepsTo rooted rnames <+: Path.stepsTo rooted all := by
    rw [← hroot, ← hall, components_of_candidate? hne h]
    exact List.prefix_append _ _
  obtain ⟨names, rfl⟩ := Path.stepsTo_prefix_iff.1 hpre
  exact ⟨names, hall⟩

namespace SameTree

variable (h : SameTree rooted d m) (tree : d.Tree)
  (hroot : Leads rooted root rnames) (hne : root ≠ Path.empty)
  (folder : d.isFolder (d.base rooted ++ rnames) = true)
  (spelt : ∀ f ∈ m.files.filterMap (Memory.candidate? root filter recursive), f.Spelled)

include h tree hroot hne folder spelt

/-- **What is found in memory** is what is sought on the disk and passes. -/
theorem mem_found {f : SourceFile} :
    f ∈ (m.files.filterMap (Memory.candidate? root filter recursive)).map SourceFile.undated ↔
      ∃ names, d.Sought (d.base rooted ++ rnames) recursive names ∧
        Disk.wantedAt filter root names = some f := by
  have undated : ∀ entry ∈ m.files, ∀ names, Leads rooted entry.1 (rnames ++ names) →
      (Memory.candidate? root filter recursive entry).map SourceFile.undated = _ :=
    fun entry hentry names hsteps => Memory.candidate?_undated hroot hne hsteps
      fun f candidate => spelt f (List.mem_filterMap.2 ⟨entry, hentry, candidate⟩)
  constructor
  · intro hf
    obtain ⟨f', hf', rfl⟩ := List.mem_map.1 hf
    obtain ⟨entry, hentry, candidate⟩ := List.mem_filterMap.1 hf'
    obtain ⟨names, hsteps⟩ :=
      Memory.exists_names_of_candidate? hroot hne (h.files_lead entry hentry) candidate
    obtain ⟨g, hg, -⟩ := h.exists_file hsteps (Memory.file?_of_mem hentry)
    rw [← List.append_assoc] at hg
    have hnames : names ≠ [] := by
      -- where the folder is, there is no file
      rintro rfl
      rw [List.append_nil, Disk.isFolder_iff.1 folder] at hg
      cases hg
    have found := undated entry hentry names hsteps
    rw [candidate, Option.map_some] at found
    split at found
    · next seen => exact ⟨names, ⟨hnames, seen.1, seen.2, g, hg⟩, found.symm⟩
    · cases found
  · rintro ⟨names, sought, hf⟩
    obtain ⟨g, hg⟩ := sought.file
    -- the file on the disk is in memory at the place that its names lead to
    obtain ⟨entry, hentry, hsteps⟩ : ∃ entry ∈ m.files,
        Leads rooted entry.1 (rnames ++ names) := by
      have hp : Leads rooted (spelled rooted (rnames ++ names)) (rnames ++ names) := by
        rw [List.append_assoc] at hg
        exact Path.leads_spelled fun name hname => tree.isName hg name (List.mem_append_right _ hname)
      have there := h.file _ _ hp
      rw [← List.append_assoc, Disk.dataAt?, hg, Memory.read?, Option.map_eq_some_iff] at there
      obtain ⟨sf, hsf, -⟩ := there
      obtain ⟨q, same, hq⟩ := Memory.file?_eq_some_iff.1 hsf
      exact ⟨_, hq, hp.of_same same.symm⟩
    have found := undated entry hentry names hsteps
    rw [if_pos ⟨sought.visible, sought.depth⟩, hf, Option.map_eq_some_iff] at found
    obtain ⟨f', candidate, rfl⟩ := found
    exact List.mem_map_of_mem (List.mem_filterMap.2 ⟨entry, hentry, candidate⟩)

end SameTree

/-- **What the walk of a disk tries fits**: the root, and the paths on the way. -/
structure Disk.FindFits (d : Disk) (rooted : Bool) (root : Path) (filter : MediaFilter)
    (recursive : Bool) : Prop where
  start : root.Fits
  walk : ∀ rnames, Leads rooted root rnames →
    d.WalkFits filter root (d.base rooted ++ rnames) (d.depthOf recursive)

/-- **Finding on a disk and in memory.** Both fail, since the root is no folder, or both find the same
files, but for their dates and in some order. -/
theorem SameTree.find_cases (h : SameTree rooted d m) (tree : d.Tree)
    (hroot : Leads rooted root rnames) (fits : d.FindFits rooted root filter recursive)
    (spelt : ∀ found, m.find root filter recursive = .ok found → ∀ f ∈ found, f.Spelled) :
    (∃ cause cause', d.find root filter recursive = .error cause ∧
      m.find root filter recursive = .error cause') ∨
    ∃ found found', d.find root filter recursive = .ok found ∧
      m.find root filter recursive = .ok found' ∧
      (found.map SourceFile.undated).Perm (found'.map SourceFile.undated) := by
  by_cases folder : root ≠ Path.empty ∧ d.isFolder (d.base rooted ++ rnames) = true
  · obtain ⟨hne, folder⟩ := folder
    obtain ⟨found, hfind, nodup, mem⟩ := tree.exists_find hroot hne (fits.walk rnames hroot) folder
    have hfind' : m.find root filter recursive
        = .ok (m.files.filterMap (Memory.candidate? root filter recursive)) := by
      rw [Memory.find, if_pos (by rw [h.folder root rnames hroot hne, folder])]
    refine .inr ⟨found, _, hfind, hfind', ?_⟩
    -- both lists are without duplicates and have the same members
    have nodup' : ((m.files.filterMap (Memory.candidate? root filter recursive)).map
        SourceFile.undated).Nodup :=
      List.pairwise_map.2 ((Memory.pairwise_find hfind').imp fun apart same => by
        have path := congrArg SourceFile.path same
        exact apart path)
    refine (List.perm_ext_iff_of_nodup nodup nodup').2 fun f => ?_
    rw [mem, h.mem_found tree hroot hne folder (spelt _ hfind')]
  · have noFolder : root = Path.empty ∨ d.isFolder (d.base rooted ++ rnames) = false := by
      rw [not_and_or, not_not, Bool.not_eq_true] at folder
      exact folder
    obtain ⟨cause, hfind⟩ := tree.exists_find_error hroot fits.start filter recursive noFolder
    refine .inl ⟨cause, .notFound root, hfind, ?_⟩
    rw [Memory.find, if_neg]
    intro isDir
    have hne := Memory.ne_empty_of_isDir isDir
    rw [h.folder root rnames hroot hne, noFolder.resolve_left hne] at isDir
    cases isDir

/-- **A file found by its names**: they spell its path below the root. -/
def SourceFile.Named (root : Path) (f : SourceFile) : Prop :=
  ∃ names, names ≠ [] ∧ (∀ name ∈ names, IsName name) ∧ f.path = Path.ofNames names ∧
    f.absolute = root.join f.path

theorem SourceFile.Named.exists_fileName {f : SourceFile} (h : f.Named root) :
    ∃ name, f.path.fileName? = some name := by
  obtain ⟨names, hne, isName, path, -⟩ := h
  obtain ⟨front, name, rfl⟩ := (List.eq_nil_or_concat names).resolve_left hne
  refine ⟨name, ?_⟩
  rw [path, Path.fileName?_eq_some_iff, Path.components_ofNames isName]
  simp

/-- Whatever is found in memory is found by its names. -/
theorem SameTree.named_of_find (h : SameTree rooted d m) (tree : d.Tree)
    (hroot : Leads rooted root rnames) {found : List SourceFile}
    (hfind : m.find root filter recursive = .ok found) (spelt : ∀ f ∈ found, f.Spelled) :
    ∀ f ∈ found, f.Named root := by
  intro f hf
  unfold Memory.find at hfind
  split at hfind
  · next isDir =>
    cases hfind
    have hne := Memory.ne_empty_of_isDir isDir
    rw [h.folder root rnames hroot hne] at isDir
    obtain ⟨names, sought, wanted⟩ :=
      (h.mem_found tree hroot hne isDir spelt).1 (List.mem_map_of_mem hf)
    obtain ⟨g, hg⟩ := sought.file
    refine ⟨names, sought.nonempty,
      fun name hname => tree.isName hg name (List.mem_append_right _ hname), ?_⟩
    -- the dates have no part in where a file is
    unfold Disk.wantedAt at wanted
    split at wanted
    · have same := Option.some.inj wanted
      have path : Path.ofNames names = f.path := congrArg SourceFile.path same
      have absolute : root.join (Path.ofNames names) = f.absolute :=
        congrArg SourceFile.absolute same
      exact ⟨path.symm, by rw [← absolute, path]⟩
    · cases wanted
  · cases hfind

end Find

/-! ### What is planned -/

namespace Plan

variable {rooted : Bool} {provider : Provider} {files found found' : List SourceFile} {t : Template}
  {destination root : Path} {dnames rnames : List Bytes} {r : Except ImportError (List Placement)}

theorem MayEnd.of_undated (dateless : t.Dateless)
    (same : (found.map SourceFile.undated).Perm (found'.map SourceFile.undated))
    (distinct : found'.Pairwise fun f g => f.path ≠ g.path)
    (h : MayEnd provider found t destination r) : MayEnd provider found' t destination r := by
  obtain ⟨files, order, run⟩ := h
  obtain ⟨g, hg, perm⟩ := exists_redating ((order.map _).trans same) distinct
  exact ⟨files.map g, perm, run.of_redating dateless hg⟩

/-- **Planning may end in the same ways** for files that differ in dates and order, if the template
does not name dates. -/
theorem mayEnd_iff (dateless : t.Dateless)
    (same : (found.map SourceFile.undated).Perm (found'.map SourceFile.undated))
    (distinct : found'.Pairwise fun f g => f.path ≠ g.path) :
    MayEnd provider found t destination r ↔ MayEnd provider found' t destination r := by
  refine ⟨MayEnd.of_undated dateless same distinct, MayEnd.of_undated dateless same.symm ?_⟩
  -- the paths of the files are the same, in some order
  have paths := same.map SourceFile.path
  rw [List.map_map, List.map_map] at paths
  exact List.pairwise_map.1 (paths.symm.pairwise (List.pairwise_map.2 distinct) fun hne => hne.symm)

/-- A path of names aims at a name from wherever names lead to. -/
theorem aims_join {p : Path} (hp : Leads rooted p rnames) {names : List Bytes} (hne : names ≠ [])
    (h : ∀ name ∈ names, IsName name) : (p.join (Path.ofNames names)).Aims rooted := by
  obtain ⟨front, name, rfl⟩ := (List.eq_nil_or_concat names).resolve_left hne
  rw [List.concat_eq_append] at h hne ⊢
  have hsteps := Path.components_ofNames h
  have plain : Path.Plain (Path.ofNames (front ++ [name])).components :=
    hsteps ▸ Path.plain_map_normal _
  refine ⟨rnames ++ front, name, ?_, ?_⟩
  · rw [List.append_assoc]
    exact hp.join hsteps
  · exact Path.endsWith_join p plain.not_isAbsolute ⟨front, Path.split_ofNames hne h⟩

/-- Where a file with a name goes inside the destination root is spelled by names. -/
theorem exists_ruled_eq (order : List (SourceFile × Values)) (k : Nat)
    {entry : SourceFile × Values} {name : Bytes} (named : entry.1.path.fileName? = some name) :
    ∃ names, names ≠ [] ∧ (∀ name ∈ names, IsName name) ∧
      ruled t order k entry = Path.ofNames names := by
  unfold ruled
  generalize (if t.needsFolderNumber then some (localNumber t order k entry) else none) = number
  by_cases nothing : rendered t entry (k + 1) number = Path.empty
  · refine ⟨[name], by simp, by simpa using Path.isName_of_fileName? named, ?_⟩
    rw [if_pos nothing, named]
    rfl
  · refine ⟨_, fun hnil => nothing ?_, fun _ hname => Path.isName_of_mem_walk hname, if_neg nothing⟩
    rw [rendered, Path.confine, hnil]
    rfl

/-- **What is planned for files found by their names** goes from names to names. -/
theorem aims_of_mem_ruledPlan {order : List (SourceFile × Values)}
    (hroot : Leads rooted root rnames) (hdestination : Leads rooted destination dnames)
    (named : ∀ entry ∈ order, entry.1.Named root) {p : Placement}
    (hp : p ∈ ruledPlan t order destination) :
    p.source.Aims rooted ∧ p.destination.Aims rooted := by
  obtain ⟨k, hk, rfl⟩ := List.mem_mapIdx.1 hp
  have file := named _ (List.getElem_mem hk)
  obtain ⟨name, hname⟩ := file.exists_fileName
  obtain ⟨inside, hinside, isName', hruled⟩ := exists_ruled_eq (t := t) order k hname
  obtain ⟨names, hne, isName, path, absolute⟩ := file
  dsimp only
  rw [hruled, absolute, path]
  exact ⟨aims_join hroot hne isName, aims_join hdestination hinside isName'⟩

end Plan
end PhotoImport
