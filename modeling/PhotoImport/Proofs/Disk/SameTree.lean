import PhotoImport.Disk.Walk
import PhotoImport.Proofs.Disk.Resolve
import PhotoImport.Proofs.Import.Batch

/-!
# A disk and a memory that hold one tree

`SameTree` relates a disk to a store in memory: whatever a path of names leads to on the disk, a file
with its contents or a folder, is what the memory has at that path. The two stores fail with
different causes and remember different things, but a caller who only wants files to get to free
names cannot tell one from the other. As long as the paths fit, each call of an import goes from two
stores with one tree to two stores with one tree:

* `SameTree.createDir` — a folder is made in both;
* `SameTree.send_taken`, `SameTree.send_free` — a file is refused by both, since its target is
  taken, or gets there in both.
-/

namespace PhotoImport

open Path (Leads Same stepsTo)

namespace Disk

variable {d : Disk} {l : Location} {data : Bytes}

/-- The contents of the file at a location. -/
def dataAt? (d : Disk) (l : Location) : Option Bytes :=
  match d.entryAt? l with
  | some (.file f) => some f.data
  | _ => none

theorem dataAt?_eq_some_iff :
    d.dataAt? l = some data ↔ ∃ f, d.entryAt? l = some (.file f) ∧ f.data = data := by
  unfold dataAt?
  split
  · next f h => simp [h]
  · next h => exact iff_of_false nofun fun ⟨f, hf, _⟩ => h f hf

theorem dataAt?_eq_none_iff : d.dataAt? l = none ↔ ∀ f, d.entryAt? l ≠ some (.file f) := by
  unfold dataAt?
  split
  · next f h => simp [h]
  · next h => exact iff_of_true rfl h

theorem dataAt?_congr {d d' : Disk} {l l' : Location} (h : d'.entryAt? l' = d.entryAt? l) :
    d'.dataAt? l' = d.dataAt? l := by rw [dataAt?, h, dataAt?]

end Disk

/-- **A disk and a memory hold one tree**, as paths of names see it that start at the root or, if
`rooted` does not hold, from where one stands. -/
structure SameTree (rooted : Bool) (d : Disk) (m : Memory) : Prop where
  /-- The files are at the same places and have the same contents. -/
  file : ∀ p names, Leads rooted p names → m.read? p = d.dataAt? (d.base rooted ++ names)
  /-- The folders are at the same places. The empty path says nothing of a place. -/
  folder : ∀ p names, Leads rooted p names → p ≠ Path.empty →
    m.isDir p = d.isFolder (d.base rooted ++ names)
  /-- There are no other files. -/
  files_lead : ∀ entry ∈ m.files, ∃ names, Leads rooted entry.1 names
  /-- There are no other folders. -/
  dirs_lead : ∀ p ∈ m.dirs, ∃ names, Leads rooted p names

/-- **Files that are stored under the paths that their names spell.** -/
def Memory.Spelled (rooted : Bool) (m : Memory) : Prop :=
  ∀ entry ∈ m.files, ∃ names, (∀ name ∈ names, Path.IsName name) ∧
    entry.1 = Path.spelled rooted names

/-- **No file is in the way** to a place in memory, nor at the place. -/
def Memory.Unobstructed (m : Memory) (p : Path) : Prop :=
  ∀ q, q.components <+: p.components → m.file? q = none

/-- What is in memory at a path when a file has got from one place to another. -/
theorem Place.file?_sent_eq (mode : TransferMode) (source target q : Path) (f : StoredFile)
    (m : Memory) : (Place.sent mode source target f m).file? q = if Same target q then some f
      else if mode = .move ∧ Same source q then none else m.file? q := by
  cases mode <;> simp [Place.sent, Memory.file?_withEntry, Memory.file?_without]

namespace SameTree

variable {rooted : Bool} {d : Disk} {m m' : Memory} {p : Path} {names : List Bytes} {f : StoredFile}
  {g : DiskFile}

/-! ### What lies at a place -/

/-- What a store notes has no part in it. -/
theorem of_eq (h : SameTree rooted d m) (files : m'.files = m.files) (dirs : m'.dirs = m.dirs) :
    SameTree rooted d m' where
  file p names hp := by
    rw [← h.file p names hp, Memory.read?, Memory.read?, Memory.file?, Memory.file?, files]
  folder p names hp hne := by
    rw [← h.folder p names hp hne, Memory.isDir, Memory.isDir, dirs]
  files_lead := files ▸ h.files_lead
  dirs_lead := dirs ▸ h.dirs_lead

theorem exists_file (h : SameTree rooted d m) (hp : Leads rooted p names)
    (found : m.file? p = some f) :
    ∃ g, d.entryAt? (d.base rooted ++ names) = some (.file g) ∧ g.data = f.data := by
  rw [← Disk.dataAt?_eq_some_iff, ← h.file p names hp, Memory.read?, found]
  rfl

theorem file?_eq_none_iff (h : SameTree rooted d m) (hp : Leads rooted p names) :
    m.file? p = none ↔ ∀ f, d.entryAt? (d.base rooted ++ names) ≠ some (.file f) := by
  rw [← Disk.dataAt?_eq_none_iff, ← h.file p names hp, Memory.read?, Option.map_eq_none_iff]

/-- **A place is free** in the memory if nothing is there on the disk. -/
theorem occupied_eq_false_iff (h : SameTree rooted d m) (tree : d.Tree) (hp : Leads rooted p names)
    (hne : p ≠ Path.empty) :
    m.occupied p = false ↔ d.entryAt? (d.base rooted ++ names) = none := by
  rw [Memory.occupied_eq_false_iff, h.file?_eq_none_iff hp, h.folder p names hp hne]
  cases hentry : d.entryAt? (d.base rooted ++ names) with
  | none => simp [Disk.isFolder, hentry]
  | some e =>
    rcases tree.folder_or_file hentry with rfl | ⟨f, rfl⟩ <;> simp [Disk.isFolder, hentry]

/-- A folder above a path is one on the disk: what paths start from, or a folder in memory. -/
theorem isFolder_parent (h : SameTree rooted d m) (tree : d.Tree) (hp : Leads rooted p names)
    (folder : p ≠ Path.empty → m.isDir p = true) :
    d.isFolder (d.base rooted ++ names) = true := by
  by_cases hne : p = Path.empty
  · rw [(hp.eq_empty_iff.1 hne).2, List.append_nil]
    exact tree.isFolder_base rooted
  · rw [← h.folder p names hp hne, folder hne]

/-! ### Folders -/

theorem vacant (h : SameTree rooted d m) (hp : Leads rooted p names) (free : m.Unobstructed p) :
    Disk.Vacant d rooted names := by
  intro k hk
  have hq : Leads rooted (Path.spelled rooted k) k :=
    Path.leads_spelled fun name hname => hp.isName name (hk.subset hname)
  refine (h.file?_eq_none_iff hq).1 (free _ ?_)
  rw [hq, hp]
  exact Path.stepsTo_prefix_iff.2 hk

/-- A folder and all above it, made in both. -/
theorem addDirs (h : SameTree rooted d m) (tree : d.Tree) (hp : Leads rooted p names)
    (vacant : Disk.Vacant d rooted names) :
    SameTree rooted (d.withFolder (d.base rooted ++ names)) (m.addDirs p) := by
  have entries : ∀ k, (d.withFolder (d.base rooted ++ names)).entryAt? (d.base rooted ++ k)
      = if k <+: names then some .folder else d.entryAt? (d.base rooted ++ k) := by
    intro k
    simp [(tree.withFolder_leads hp vacant).2]
  refine ⟨fun q k hq => ?_, fun q k hq hne => ?_, h.files_lead, fun q hq => ?_⟩
  all_goals try rw [Disk.base_withFolder]
  · -- where a folder is made, there is no file before or after
    change m.read? q = _
    rw [h.file q k hq]
    by_cases hk : k <+: names
    · rw [Disk.dataAt?_eq_none_iff.2 (vacant k hk),
        Disk.dataAt?_eq_none_iff.2 (by simp [entries, hk])]
    · exact (Disk.dataAt?_congr (by rw [entries, if_neg hk])).symm
  · have above : (∃ a ∈ p.ancestors, a ≠ Path.empty ∧ Same a q) ↔ k <+: names := by
      rw [Path.exists_named_ancestor_iff, and_iff_right hne, hq, hp, Path.stepsTo_prefix_iff]
    rw [Bool.eq_iff_iff, Memory.isDir_addDirs, above, h.folder q k hq hne, Disk.isFolder_iff,
      Disk.isFolder_iff, entries]
    by_cases hk : k <+: names <;> simp [hk]
  · rcases Memory.mem_of_mem_addDirs hq with hq | hq
    · exact h.dirs_lead q hq
    · -- what is above a path of names is one
      rw [List.mem_filter, decide_eq_true_iff] at hq
      obtain ⟨k, -, hk⟩ := hp.exists_of_prefix hq.2
        ((Path.exists_ancestor_iff hq.2).1 ⟨q, hq.1, Path.Same.refl q⟩)
      exact ⟨k, hk⟩

/-- **Making a folder** makes it in both. -/
theorem createDir (h : SameTree rooted d m) (tree : d.Tree) (hp : Leads rooted p names)
    (tidy : Disk.Tidy p names) (fits : p.Fits) (free : m.Unobstructed p) :
    ∃ d', Disk.createDir p d = (.ok (), d') ∧ d'.Tree ∧
      SameTree rooted d' ((m.note (.createDir p)).addDirs p) := by
  have vacant := h.vacant hp free
  refine ⟨_, tree.createDir_eq hp tidy fits vacant, (tree.withFolder_leads hp vacant).1, ?_⟩
  exact (h.addDirs tree hp vacant).of_eq rfl rfl

/-! ### Files -/

section Send

open Place (sent send)

variable {mode : TransferMode} {d' : Disk} {source target : Path} {snames tnames : List Bytes}
  {sname tname : Bytes} {g' : DiskFile}

/-- **A file that gets from one place to another** in both. -/
theorem of_sent (h : SameTree rooted d m) (hs : Leads rooted source snames)
    (ht : Leads rooted target tnames)
    (there : d.entryAt? (d.base rooted ++ snames) = some (.file g))
    (free : d.entryAt? (d.base rooted ++ tnames) = none) (base : d'.base rooted = d.base rooted)
    (entries : ∀ k, d'.entryAt? (d.base rooted ++ k) = if k = tnames then some (.file g')
      else if mode = .move ∧ k = snames then none else d.entryAt? (d.base rooted ++ k))
    (data : g'.data = f.data) : SameTree rooted d' (sent mode source target f m) := by
  refine ⟨fun q k hq => ?_, fun q k hq hne => ?_, fun entry hentry => ?_, ?_⟩
  · have before := h.file q k hq
    rw [base, Memory.read?, Place.file?_sent_eq, Disk.dataAt?, entries]
    simp only [ht.same_iff hq, hs.same_iff hq, eq_comm (b := k)]
    by_cases hkt : k = tnames
    · simp [hkt, data]
    rw [if_neg hkt, if_neg hkt]
    by_cases hks : mode = .move ∧ k = snames
    · rw [if_pos hks, if_pos hks]
      rfl
    · rw [if_neg hks, if_neg hks]
      exact before
  · -- neither before nor after is a folder where the file is
    rw [Place.isDir_sent, h.folder q k hq hne, base, Bool.eq_iff_iff, Disk.isFolder_iff,
      Disk.isFolder_iff, entries]
    by_cases hkt : k = tnames
    · simp [hkt, free]
    rw [if_neg hkt]
    by_cases hks : mode = .move ∧ k = snames
    · simp [hks, there]
    · rw [if_neg hks]
  · -- a file in memory is the one that has been sent, or it was there before
    have found := Memory.file?_of_mem hentry
    rw [Place.file?_sent_eq] at found
    split at found
    · next same => exact ⟨tnames, ht.of_same same⟩
    · split at found
      · cases found
      · obtain ⟨q, same, hq⟩ := Memory.file?_eq_some_iff.1 found
        obtain ⟨k, hk⟩ := h.files_lead _ hq
        exact ⟨k, hk.of_same same⟩
  · intro q hq
    cases mode <;> exact h.dirs_lead q hq

variable (tree : d.Tree) (hs : Disk.Points rooted source snames sname)
  (ht : Disk.Points rooted target tnames tname) (found : m.file? source = some f)
  (folder : d.isFolder (d.base rooted ++ tnames) = true)

include tree hs ht found folder

/-- **A transfer to a place that is taken** is refused by the disk, which stays as it is. -/
theorem send_taken (h : SameTree rooted d m) (taken : m.occupied target = true) :
    (send mode source target : Action StorageError Disk Unit).result d
      = (.error (.alreadyExists target), d) := by
  obtain ⟨g, hg, -⟩ := h.exists_file hs.leads found
  obtain ⟨e, he⟩ : ∃ e, d.entryAt? (d.base rooted ++ (tnames ++ [tname])) = some e := by
    refine Option.ne_none_iff_exists'.1 fun free => ?_
    rw [(h.occupied_eq_false_iff tree ht.leads ht.ne_empty).2 free] at taken
    cases taken
  cases mode with
  | copy =>
    change Disk.copy source target d = _
    rw [tree.copy_eq hs ht hg folder, he]
  | move =>
    change Disk.rename source target d = _
    rw [tree.rename_eq hs ht hg folder, he]

/-- **A transfer to a free place** ends well on the disk as it does in memory. -/
theorem send_free (h : SameTree rooted d m) (free : m.occupied target = false) :
    ∃ d', (send mode source target : Action StorageError Disk Unit).result d = (.ok (), d') ∧
      d'.Tree ∧ SameTree rooted d' (sent mode source target f m) := by
  obtain ⟨g, hg, data⟩ := h.exists_file hs.leads found
  have vacant := (h.occupied_eq_false_iff tree ht.leads ht.ne_empty).1 free
  have named : ∀ name ∈ d.base rooted ++ (tnames ++ [tname]), Path.IsName name := by
    rw [List.forall_mem_append]
    exact ⟨tree.isName (Disk.isFolder_iff.1 (tree.isFolder_base rooted)), ht.leads.isName⟩
  have above : d.isFolder (d.base rooted ++ (tnames ++ [tname])).dropLast = true := by
    rwa [← List.append_assoc, List.dropLast_concat]
  cases mode with
  | copy =>
    let g' : DiskFile := g.copied
    refine ⟨d.add _ (.file g'), ?_, tree.add vacant named above nofun, ?_⟩
    · change Disk.copy source target d = _
      rw [tree.copy_eq hs ht hg folder, vacant]
    · refine h.of_sent hs.leads ht.leads hg vacant rfl (fun k => ?_)
        (show g'.data = f.data from data)
      rw [Disk.entryAt?_add vacant]
      simp
  | move =>
    obtain ⟨moved, entries⟩ := tree.relocate hg vacant named above
    refine ⟨_, ?_, moved, ?_⟩
    · change Disk.rename source target d = _
      rw [tree.rename_eq hs ht hg folder, vacant]
    · refine h.of_sent hs.leads ht.leads hg vacant rfl (fun k => ?_) data
      rw [entries]
      simp

end Send

end SameTree
end PhotoImport
