import Mathlib.Data.List.Pairwise
import PhotoImport.Storage.Memory
import PhotoImport.Proofs.Path.Components

/-!
# Files in memory, seen through look-ups

A store in memory is a list of files and a list of folders, but all that a caller sees of it is what
stands at a path. Here each change of the store is said in these terms, so that nothing behind this
module looks at the lists:

* `file?_withEntry`, `file?_without`, `isDir_addDirs` — what stands at a path after a change;
* `files_withEntry`, `perm_without` — how the list of files changes when a file comes or goes;
* `createDir_cases`, `copy_cases`, `rename_cases` — all that a call can do. A call that fails leaves
  nothing behind but its note, and one that transfers a file finds it and has a free target.
-/

namespace PhotoImport.Memory

open Path (Same)

variable {m : Memory} {p q : Path} {f : StoredFile}

/-! ### Look-ups -/

theorem hasPath_iff {paths : List Path} : hasPath paths p = true ↔ ∃ q ∈ paths, Same q p := by
  simp [hasPath]

/-- A list has a path in any spelling. -/
theorem hasPath_congr (paths : List Path) (same : Same p q) :
    hasPath paths p = hasPath paths q := by
  simp only [hasPath, same.congr_right]

/-- No two entries are at one place. -/
theorem eq_of_same {a b : Path × StoredFile} (ha : a ∈ m.files) (hb : b ∈ m.files)
    (same : Same a.1 b.1) : a = b := by
  have symm : Std.Symm fun a b : Path × StoredFile => ¬ Same a.1 b.1 :=
    ⟨fun _ _ apart same => apart same.symm⟩
  by_contra hne
  exact m.files_distinct.forall ha hb hne same

/-- **The file at a path** is the one that is stored under some spelling of it. -/
theorem file?_eq_some_iff : m.file? p = some f ↔ ∃ q, Same q p ∧ (q, f) ∈ m.files := by
  unfold file?
  constructor
  · intro h
    obtain ⟨entry, found, rfl⟩ := Option.map_eq_some_iff.1 h
    exact ⟨entry.1, by simpa using List.find?_some found, List.mem_of_find?_eq_some found⟩
  · rintro ⟨q, same, hq⟩
    cases hfound : m.files.find? fun entry => decide (Same entry.1 p) with
    | none =>
      have absent := List.find?_eq_none.1 hfound (q, f) hq
      exact absurd same (by simpa using absent)
    | some entry =>
      have same' : Same entry.1 p := by simpa using List.find?_some hfound
      rw [eq_of_same (List.mem_of_find?_eq_some hfound) hq (same'.trans same.symm)]
      rfl

theorem file?_eq_none_iff : m.file? p = none ↔ ∀ entry ∈ m.files, ¬ Same entry.1 p := by
  simp [file?]

theorem file?_of_mem {entry : Path × StoredFile} (h : entry ∈ m.files) :
    m.file? entry.1 = some entry.2 :=
  file?_eq_some_iff.2 ⟨entry.1, Path.Same.refl _, h⟩

/-- A file is found in any spelling of its path. -/
theorem file?_congr (m : Memory) (same : Same p q) : m.file? p = m.file? q := by
  simp only [file?, same.congr_right]

theorem isDir_congr (m : Memory) (same : Same p q) : m.isDir p = m.isDir q :=
  hasPath_congr m.dirs same

theorem occupied_eq_false_iff : m.occupied p = false ↔ m.file? p = none ∧ m.isDir p = false := by
  simp [occupied]

/-- No path is both a file and a folder if no folder is where a file is. -/
theorem file?_of_isDir (h : ∀ d ∈ m.dirs, m.file? d = none) (folder : m.isDir p = true) :
    m.file? p = none := by
  obtain ⟨d, hd, same⟩ := hasPath_iff.1 folder
  rw [← file?_congr m same]
  exact h d hd

/-! ### Changes -/

@[simp] theorem file?_note (call : StoreCall) : (m.note call).file? p = m.file? p := rfl

@[simp] theorem isDir_note (call : StoreCall) : (m.note call).isDir p = m.isDir p := rfl

@[simp] theorem files_note (call : StoreCall) : (m.note call).files = m.files := rfl

@[simp] theorem dirs_note (call : StoreCall) : (m.note call).dirs = m.dirs := rfl

@[simp] theorem denied_note (call : StoreCall) : (m.note call).denied = m.denied := rfl

@[simp] theorem occupied_note (call : StoreCall) : (m.note call).occupied p = m.occupied p := rfl

@[simp] theorem obstacle?_note (call : StoreCall) : (m.note call).obstacle? p = m.obstacle? p := rfl

@[simp] theorem isDir_withEntry : (m.withEntry p f).isDir q = m.isDir q := rfl

@[simp] theorem isDir_without : (m.without p).isDir q = m.isDir q := rfl

@[simp] theorem file?_addDirs : (m.addDirs p).file? q = m.file? q := rfl

/-- **A file that is put at a path** is there, and nowhere else does anything change. -/
theorem file?_withEntry : (m.withEntry p f).file? q = if Same p q then some f else m.file? q := by
  unfold withEntry putFile file?
  split
  · next present =>
    simp only [List.any_eq_true, decide_eq_true_eq] at present
    obtain ⟨old, hold, there⟩ := present
    -- a file that is stored again keeps the spelling of its path
    have kept : (fun entry : Path × StoredFile => decide (Same entry.1 q))
        ∘ (fun entry => if Same entry.1 p then (entry.1, f) else entry)
        = fun entry => decide (Same entry.1 q) := by
      funext entry
      by_cases h : Same entry.1 p <;> simp [h]
    rw [List.find?_map, kept]
    cases hfound : m.files.find? fun entry => decide (Same entry.1 q) with
    | none =>
      have absent := List.find?_eq_none.1 hfound old hold
      have apart : ¬ Same p q := fun h => absent (by simpa using there.trans h)
      simp [apart]
    | some entry =>
      have hentry : Same entry.1 q := by simpa using List.find?_some hfound
      by_cases same : Same p q
      · simp [same, hentry.trans same.symm]
      · have apart : ¬ Same entry.1 p := fun h => same (h.symm.trans hentry)
        simp [same, apart]
  · -- the new entry comes last, behind all that is found first
    next absent =>
    simp only [List.any_eq_true, decide_eq_true_eq, not_exists, not_and] at absent
    rw [List.find?_append]
    by_cases same : Same p q
    · have none : (m.files.find? fun entry => decide (Same entry.1 q)) = none := by
        refine List.find?_eq_none.2 fun entry hentry => ?_
        simpa using fun h : Same entry.1 q => absent entry hentry (h.trans same.symm)
      simp [same, none]
    · simp [same]

/-- **A file that is taken away** is gone, and nowhere else does anything change. -/
theorem file?_without : (m.without p).file? q = if Same p q then none else m.file? q := by
  unfold without removeFile file?
  rw [List.find?_filter]
  by_cases same : Same p q
  · rw [if_pos same, Option.map_eq_none_iff, List.find?_eq_none]
    intro entry _ h
    simp only [Bool.not_eq_eq_eq_not, Bool.not_true, decide_eq_false_iff_not,
      decide_eq_true_eq] at h
    exact h.1 (h.2.trans same.symm)
  · rw [if_neg same]
    congr 2
    funext entry
    -- an entry at the one place is not at the other
    by_cases h : Same entry.1 q
    · have apart : ¬ Same entry.1 p := fun h' => same (h'.symm.trans h)
      simp [h, apart]
    · simp [h]

/-- At a free path a file is one more. -/
theorem files_withEntry (free : m.file? p = none) :
    (m.withEntry p f).files = m.files ++ [(p, f)] := by
  change putFile m.files p f = _
  rw [putFile, if_neg]
  simpa using file?_eq_none_iff.1 free

/-- **The files are the one at a path and those that stay** without it. -/
theorem perm_without (h : m.file? p = some f) :
    ∃ q, Same q p ∧ m.files.Perm ((q, f) :: (m.without p).files) := by
  obtain ⟨q, same, hq⟩ := file?_eq_some_iff.1 h
  obtain ⟨before, after, hfiles⟩ := List.append_of_mem hq
  -- no two files are at one place, so taking away the place takes this file alone
  have apart : ∀ entry ∈ before ++ after, ¬ Same entry.1 p := by
    have distinct := m.files_distinct
    rw [hfiles, List.pairwise_append, List.pairwise_cons] at distinct
    obtain ⟨-, ⟨behind, -⟩, ahead⟩ := distinct
    intro entry hentry there
    rcases List.mem_append.1 hentry with hentry | hentry
    · exact ahead entry hentry (q, f) List.mem_cons_self (there.trans same.symm)
    · exact behind entry hentry (same.trans there.symm)
  have stay : (m.without p).files = before ++ after := by
    change removeFile m.files p = _
    have here : ∀ entry ∈ before ++ after, (!decide (Same entry.1 p)) = true := by simpa using apart
    rw [List.forall_mem_append] at here
    rw [hfiles, removeFile, List.filter_append, List.filter_cons_of_neg (by simpa using same),
      List.filter_eq_self.2 here.1, List.filter_eq_self.2 here.2]
  rw [stay, hfiles]
  exact ⟨q, same, List.perm_middle⟩

/-! ### Folders -/

theorem hasPath_addDir {dirs : List Path} :
    hasPath (addDir dirs p) q = true ↔ hasPath dirs q = true ∨ Same p q := by
  unfold addDir
  split
  · next there =>
    -- a folder that is there already is not added again, but it has every spelling
    refine ⟨.inl, fun h => h.elim id fun same => ?_⟩
    rwa [← hasPath_congr dirs same]
  · simp [hasPath]

theorem hasPath_addDirs {dirs ps : List Path} :
    hasPath (ps.foldl addDir dirs) q = true ↔ hasPath dirs q = true ∨ ∃ p ∈ ps, Same p q := by
  induction ps generalizing dirs with
  | nil => simp
  | cons p ps ih =>
    rw [List.foldl_cons, ih, hasPath_addDir]
    simp [or_assoc]

/-- **The folders after one has been made**: those that were there, and the new one with all that
are above it, but never the empty path. -/
theorem isDir_addDirs : (m.addDirs p).isDir q = true ↔
    m.isDir q = true ∨ ∃ a ∈ p.ancestors, a ≠ Path.empty ∧ Same a q := by
  unfold isDir addDirs
  rw [hasPath_addDirs]
  simp [and_assoc]

theorem isDir_addDirs_of_isDir (h : m.isDir q = true) : (m.addDirs p).isDir q = true :=
  isDir_addDirs.2 (.inl h)

theorem mem_ancestors_self (p : Path) : p ∈ p.ancestors := by
  unfold Path.ancestors
  cases p.components.length <;> simp [Path.ancestors.go]

/-- A folder that is made is there. -/
theorem isDir_addDirs_self (hne : p ≠ Path.empty) : (m.addDirs p).isDir p = true :=
  isDir_addDirs.2 (.inr ⟨p, mem_ancestors_self p, hne, Path.Same.refl p⟩)

/-- A file stays when another is put where none is. -/
theorem file?_withEntry_of_vacant {target : Path} {g : StoredFile} (vacant : m.file? target = none)
    (h : m.file? p = some f) : (m.withEntry target g).file? p = some f := by
  -- at the target there was nothing, so it is another place
  have apart : ¬ Same target p := by
    intro same
    rw [file?_congr m same, h] at vacant
    cases vacant
  rw [file?_withEntry, if_neg apart, h]

/-! ### Calls -/

/-- **Nothing forbids a file at a path** that is not denied, that is free, and whose folder is there
or is the empty path. -/
theorem obstacle?_eq_none_iff : m.obstacle? p = none ↔
    hasPath m.denied p = false ∧ m.occupied p = false ∧
      ∀ folder, p.parent? = some folder → folder ≠ Path.empty → m.isDir folder = true := by
  unfold obstacle?
  cases hasPath m.denied p with
  | true => simp
  | false =>
    cases m.occupied p with
    | true => simp
    | false =>
      cases p.parent? with
      | none => simp
      | some folder => simp

/-- **What forbids a file at a path**, if it is not something else, is that the path is taken. -/
theorem obstacle?_cases {e : StorageError} (h : m.obstacle? p = some e) :
    e = .alreadyExists p ∧ m.occupied p = true ∨ ∀ q, e ≠ .alreadyExists q := by
  unfold obstacle? at h
  split at h
  · cases h
    exact .inr nofun
  split at h
  · next taken =>
    cases h
    exact .inl ⟨rfl, taken⟩
  -- nothing is there, so at most the folder is missing
  right
  split at h
  · cases h
  · split at h
    · cases h
      nofun
    · cases h

theorem vacant_of_obstacle? (free : m.obstacle? p = none) : m.file? p = none :=
  (occupied_eq_false_iff.1 (obstacle?_eq_none_iff.1 free).2.1).1

/-- **Making a folder** fails or makes it; in both cases no file changes. -/
theorem createDir_cases (p : Path) (m : Memory) :
    (∃ e, createDir p m = (.error e, m.note (.createDir p))) ∨
      createDir p m = (.ok (), (m.note (.createDir p)).addDirs p) := by
  unfold createDir
  dsimp only
  split
  · exact .inl ⟨_, rfl⟩
  split
  · exact .inl ⟨_, rfl⟩
  · exact .inr rfl

/-- A folder is made only where no one has denied it and no file is. -/
theorem allowed_of_createDir {m' : Memory} (h : createDir p m = (.ok (), m')) :
    hasPath m.denied p = false ∧ m.file? p = none := by
  unfold createDir at h
  dsimp only at h
  split at h
  · cases h
  · next allowed =>
    split at h
    · cases h
    · next vacant => exact ⟨by simpa using allowed, by simpa using vacant⟩

/-- **Copying a file** fails and leaves everything, or finds the file and puts it at a free path. -/
theorem copy_cases (source target : Path) (m : Memory) :
    (∃ e, copy source target m = (.error e, m.note (.copy source target))) ∨
      ∃ f, m.file? source = some f ∧ m.obstacle? target = none ∧
        copy source target m = (.ok (), (m.note (.copy source target)).withEntry target f) := by
  unfold copy
  simp only [file?_note, obstacle?_note]
  cases m.file? source with
  | none => exact .inl ⟨_, rfl⟩
  | some f =>
    cases m.obstacle? target with
    | some e => exact .inl ⟨_, rfl⟩
    | none => exact .inr ⟨f, rfl, rfl, rfl⟩

/-- **Moving a file** fails and leaves everything, or finds the file and puts it at a free path. -/
theorem rename_cases (source target : Path) (m : Memory) :
    (∃ e, rename source target m = (.error e, m.note (.rename source target))) ∨
      ∃ f, m.file? source = some f ∧ m.obstacle? target = none ∧
        rename source target m
          = (.ok (), ((m.note (.rename source target)).without source).withEntry target f) := by
  unfold rename
  simp only [file?_note, obstacle?_note]
  cases m.file? source with
  | none => exact .inl ⟨_, rfl⟩
  | some f =>
    cases m.obstacle? target with
    | some e => exact .inl ⟨_, rfl⟩
    | none => exact .inr ⟨f, rfl, rfl, rfl⟩

end PhotoImport.Memory
