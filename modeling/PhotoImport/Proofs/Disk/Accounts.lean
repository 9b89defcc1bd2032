import PhotoImport.Proofs.Disk.Worklist

/-!
# What a walk has found

A walk accounts for all that is to be looked at (`Walking.Accounts`): the entries that have been
looked at, and those below what is still to be done, are all of them, each once. This is kept by each
step, whatever the order of the entries is (`Walking.Accounts.step`).

So a walk that ends well has found what the candidates lead to, and it ends well exactly if none of
them is broken (`Walking.Accounts.exact`).
-/

namespace PhotoImport.Disk

open PhotoImport.Path (Same IsName dot)

/-! ### The entries of a folder, by kind -/

/-- The files and links in a folder that are visible. -/
def leavesIn (d : Disk) (l : Location) : List (Bytes × DiskEntry) :=
  (d.visibleIn l).filter (·.2 ≠ .folder)

/-- The folders in a folder that are visible. -/
def foldersIn (d : Disk) (l : Location) : List (Bytes × DiskEntry) :=
  (d.visibleIn l).filter (·.2 = .folder)

/-- The entries of a folder that are hidden. -/
def hiddenIn (d : Disk) (l : Location) : List (Bytes × DiskEntry) :=
  (d.entriesIn l).filter (·.1.head? = some dot)

section Kinds

variable {d : Disk} {l : Location} {entry : Bytes × DiskEntry}

theorem mem_leavesIn : entry ∈ d.leavesIn l ↔
    entry ∈ d.entriesIn l ∧ entry.1.head? ≠ some dot ∧ entry.2 ≠ .folder := by
  rw [leavesIn, visibleIn, List.mem_filter, List.mem_filter, decide_eq_true_iff, decide_eq_true_iff,
    and_assoc]

theorem mem_foldersIn : entry ∈ d.foldersIn l ↔
    entry ∈ d.entriesIn l ∧ entry.1.head? ≠ some dot ∧ entry.2 = .folder := by
  rw [foldersIn, visibleIn, List.mem_filter, List.mem_filter, decide_eq_true_iff,
    decide_eq_true_iff, and_assoc]

theorem mem_hiddenIn : entry ∈ d.hiddenIn l ↔
    entry ∈ d.entriesIn l ∧ entry.1.head? = some dot := by
  rw [hiddenIn, List.mem_filter, decide_eq_true_iff]

/-- Each entry of a folder is of one kind. -/
theorem perm_entriesIn (d : Disk) (l : Location) :
    (d.leavesIn l ++ (d.foldersIn l ++ d.hiddenIn l)).Perm (d.entriesIn l) := by
  have byName := List.filter_append_perm
    (fun entry : Bytes × DiskEntry => decide (entry.1.head? ≠ some dot)) (d.entriesIn l)
  have byKind := List.filter_append_perm
    (fun entry : Bytes × DiskEntry => decide (entry.2 ≠ .folder)) (d.visibleIn l)
  simp only [ne_eq, decide_not, Bool.not_not] at byName byKind
  rw [← List.append_assoc]
  simp only [leavesIn, foldersIn, hiddenIn, ne_eq, decide_not]
  exact (byKind.append_right _).trans (by simpa [visibleIn] using byName)

end Kinds

theorem filterMap_cons_eq_append {α β : Type} (f : α → Option β) (x : α) (xs : List α) :
    (x :: xs).filterMap f = (f x).toList ++ xs.filterMap f := by
  rw [List.filterMap_cons]
  cases f x <;> rfl

/-! ### What is still to be looked at -/

/-- **What a walk can rely on**: its root leads to a folder, and the paths of the folders below it
are not too long. -/
structure Readable (d : Disk) (root : Path) (l : Location) (recursive : Bool) : Prop where
  mounted : d.Mounted
  resolved : d.resolve root = .ok l
  folder : d.isFolder l = true
  short : ∀ names, d.Reached l recursive names → (root.along names).bytes.length ≤ pathLimit

/-- The entries that are looked at below a folder. -/
def dueBelow (d : Disk) (l : Location) (recursive : Bool) (names : List Bytes) :
    List (List Bytes) :=
  (d.filesBelow (d.depthOf recursive - names.length) (l ++ names)).map (names ++ ·)

/-- The entries that are looked at since an entry of a folder is there. -/
def dueAt (d : Disk) (l : Location) (recursive : Bool) (sub : List Bytes)
    (entry : Bytes × DiskEntry) : List (List Bytes) :=
  if entry.1.head? = some dot then []
  else if entry.2 = .folder then d.dueBelow l recursive (sub ++ [entry.1])
  else [sub ++ [entry.1]]

variable {d : Disk} {root : Path} {filter : MediaFilter} {recursive : Bool} {l : Location}
  {names sub : List Bytes} {r : Except StorageError (List SourceFile)}

theorem dueBelow_nil (d : Disk) (l : Location) (recursive : Bool) :
    d.dueBelow l recursive [] = d.filesBelow (d.depthOf recursive) l := by
  simp [dueBelow]

/-- Nothing is looked at below a folder that is as deep as the walk goes. -/
theorem dueBelow_of_deep (deep : d.depthOf recursive ≤ names.length) :
    d.dueBelow l recursive names = [] := by
  rw [dueBelow, Nat.sub_eq_zero_of_le deep]
  rfl

/-- What is due below a folder is due at its entries, kind by kind. -/
theorem dueBelow_eq (lt : sub.length < d.depthOf recursive) :
    d.dueBelow l recursive sub
      = (d.leavesIn (l ++ sub) ++ (d.foldersIn (l ++ sub) ++ d.hiddenIn (l ++ sub))).flatMap
          (d.dueAt l recursive sub) := by
  -- the folders below are searched one level less deep
  obtain ⟨k, hk⟩ : ∃ k, d.depthOf recursive - sub.length = k + 1 :=
    ⟨d.depthOf recursive - sub.length - 1, by omega⟩
  have next : ∀ name, d.depthOf recursive - (sub ++ [name]).length = k := by
    intro name
    rw [List.length_append, List.length_singleton]
    omega
  have leaves : (d.leavesIn (l ++ sub)).flatMap (d.dueAt l recursive sub)
      = (d.leavesIn (l ++ sub)).map fun entry => sub ++ [entry.1] := by
    rw [List.map_eq_flatMap]
    refine List.flatMap_congr fun entry hentry => ?_
    obtain ⟨-, visible, noFolder⟩ := mem_leavesIn.1 hentry
    rw [dueAt, if_neg visible, if_neg noFolder]
  have folders : (d.foldersIn (l ++ sub)).flatMap (d.dueAt l recursive sub)
      = (d.foldersIn (l ++ sub)).flatMap fun entry =>
          (d.filesBelow k (l ++ sub ++ [entry.1])).map fun rest => sub ++ entry.1 :: rest := by
    refine List.flatMap_congr fun entry hentry => ?_
    obtain ⟨-, visible, folder⟩ := mem_foldersIn.1 hentry
    rw [dueAt, if_neg visible, if_pos folder, dueBelow, next, List.append_assoc]
    simp
  have hidden : (d.hiddenIn (l ++ sub)).flatMap (d.dueAt l recursive sub) = [] := by
    rw [List.flatMap_eq_nil_iff]
    intro entry hentry
    exact if_pos (mem_hiddenIn.1 hentry).2
  rw [List.flatMap_append, List.flatMap_append, leaves, folders, hidden, List.append_nil, dueBelow,
    hk, filesBelow]
  simp [List.map_flatMap, Function.comp_def, leavesIn, foldersIn]

/-- **What is due below a folder** is due at its entries, in whatever order they are read. -/
theorem perm_dueBelow (lt : sub.length < d.depthOf recursive)
    {entries : List (Bytes × DiskEntry)} (order : entries.Perm (d.entriesIn (l ++ sub))) :
    (entries.flatMap (d.dueAt l recursive sub)).Perm (d.dueBelow l recursive sub) := by
  rw [dueBelow_eq lt]
  exact (order.trans (perm_entriesIn d (l ++ sub)).symm).flatMap_right _

/-! ### What a walk does in folders that it reaches -/

section Readable

variable (h : d.Readable root l recursive)

include h

/-- A folder that is reached can be read. -/
theorem Readable.readFolder_along (reached : d.Reached l recursive sub) :
    d.readFolder (root.along sub) = .ok (d.entriesIn (l ++ sub)) := by
  have folder := reached.isFolder h.folder
  rw [readFolder, h.mounted.resolve_along h.resolved folder (h.short sub reached)]
  exact if_pos folder

variable (filter) {name : Bytes} {e : DiskEntry}
  (there : d.entryAt? (l ++ (sub ++ [name])) = some e)

include there

/-- The names on the way to an entry. -/
theorem Readable.isName_of_entry : ∀ n ∈ sub ++ [name], IsName n := fun n hn =>
  h.mounted.isName there n (List.mem_append_right _ hn)

/-- **A visible file or link** is judged by what it leads to. -/
theorem Readable.judge_file (visible : name.head? ≠ some dot) (noFolder : e ≠ .folder) :
    (d.Broken root filter (sub ++ [name]) ∧
      ∃ error, d.judge root filter recursive (root.along (sub ++ [name])) name e = .error error) ∨
    (¬ d.Broken root filter (sub ++ [name]) ∧
      d.judge root filter recursive (root.along (sub ++ [name])) name e
        = .ok ((d.fileAt root filter (sub ++ [name])).elim .skip .file)) := by
  have hne := ne_empty_of_resolve h.resolved
  rw [judge, if_neg visible, if_neg noFolder]
  rcases foundFile_along filter hne (by simp) (h.isName_of_entry there) with
    ⟨broken, error, failed⟩ | ⟨sound, found⟩
  · refine .inl ⟨broken, error, ?_⟩
    rw [failed]
    rfl
  · refine .inr ⟨sound, ?_⟩
    rw [found]
    rfl

/-- **An entry of a folder that is reached** is passed over, and then nothing is due at it; or it is
a folder, and the walk goes on there; or it is looked at, and judged by what it leads to. -/
theorem Readable.judge_cases (reached : d.Reached l recursive sub) :
    (d.judge root filter recursive (root.along (sub ++ [name])) name e = .ok .skip ∧
      d.dueAt l recursive sub (name, e) = []) ∨
    (d.judge root filter recursive (root.along (sub ++ [name])) name e
        = .ok (.descend (root.along (sub ++ [name]))) ∧
      d.Reached l recursive (sub ++ [name]) ∧
      d.dueAt l recursive sub (name, e) = d.dueBelow l recursive (sub ++ [name])) ∨
    (d.LookedAt l recursive (sub ++ [name]) ∧
      d.dueAt l recursive sub (name, e) = [sub ++ [name]] ∧
      ((d.Broken root filter (sub ++ [name]) ∧ ∃ error,
          d.judge root filter recursive (root.along (sub ++ [name])) name e = .error error) ∨
        (¬ d.Broken root filter (sub ++ [name]) ∧
          d.judge root filter recursive (root.along (sub ++ [name])) name e
            = .ok ((d.fileAt root filter (sub ++ [name])).elim .skip .file)))) := by
  by_cases visible : name.head? = some dot
  · exact .inl ⟨if_pos visible, if_pos visible⟩
  by_cases folder : e = .folder
  · subst folder
    rw [judge, if_neg visible, if_pos rfl, dueAt, if_neg visible, if_pos rfl]
    cases recursive with
    | true => exact .inr (.inl ⟨rfl, .within rfl reached visible there, rfl⟩)
    | false =>
      -- the folder is as deep as the walk goes
      refine .inl ⟨rfl, dueBelow_of_deep ?_⟩
      rw [List.length_append, List.length_singleton, depthOf, if_neg Bool.false_ne_true]
      exact Nat.le_add_left 1 _
  · refine .inr (.inr ⟨⟨⟨sub, name, rfl, reached, visible⟩, e, folder, there⟩, ?_, ?_⟩)
    · rw [dueAt, if_neg visible, if_neg folder]
    · exact h.judge_file filter there visible folder

end Readable

/-! ### The invariant -/

namespace Walking

variable {s s' : Walking} {done folders : List (List Bytes)}

/-- **A walk accounts for all entries**: those in `done` have been looked at, and the others are due
in the folder along `sub` that is being read, or below the folders on the stack. -/
structure Accounts (d : Disk) (root : Path) (filter : MediaFilter) (recursive : Bool) (l : Location)
    (done folders : List (List Bytes)) (sub : List Bytes) (s : Walking) : Prop where
  stack : s.stack = folders.map root.along
  reached : ∀ names ∈ folders, d.Reached l recursive names
  current : s.current = root.along sub
  inside : d.Reached l recursive sub
  reading : ∀ entry ∈ s.reading, d.entryAt? (l ++ (sub ++ [entry.1])) = some entry.2
  /-- Every entry that is to be looked at is accounted for once. -/
  due : (done ++ (s.reading.flatMap (d.dueAt l recursive sub) ++
    folders.flatMap (d.dueBelow l recursive))).Perm (d.filesBelow (d.depthOf recursive) l)
  found : s.found = done.filterMap (d.fileAt root filter)
  sound : ∀ names ∈ done, ¬ d.Broken root filter names

theorem accounts_start (root : Path) (filter : MediaFilter) :
    Accounts d root filter recursive l [] [[]] [] (start root) where
  stack := rfl
  reached := by
    rw [List.forall_mem_singleton]
    exact .root
  current := rfl
  inside := .root
  reading := nofun
  due := by
    rw [List.flatMap_singleton, dueBelow_nil]
    exact .refl _
  found := rfl
  sound := nofun

section Step

variable {stack : List Path} {current : Path} {name : Bytes} {e : DiskEntry}
  {reading entries : List (Bytes × DiskEntry)} {found : List SourceFile} {names : List Bytes}

/-- A walk that reads a folder has the entries of this folder before it. -/
theorem Accounts.read (h : d.Readable root l recursive)
    (accounts : Accounts d root filter recursive l done (names :: folders) sub
      ⟨root.along names :: folders.map root.along, current, [], found⟩)
    (order : entries.Perm (d.entriesIn (l ++ names))) :
    Accounts d root filter recursive l done folders names
      ⟨folders.map root.along, root.along names, entries, found⟩ := by
  have inside : d.Reached l recursive names := accounts.reached names List.mem_cons_self
  refine { accounts with
    stack := rfl, current := rfl, inside
    reached := fun other hother => accounts.reached other (List.mem_cons_of_mem _ hother)
    reading := ?_
    due := ?_ }
  · intro entry hentry
    have listed := mem_entriesIn.1 (order.mem_iff.1 hentry)
    rw [← List.append_assoc]
    exact (h.mounted.entryAt?_iff (by simp)).2 listed
  · -- what was due below the folder is due at its entries now
    have lt := inside.length_lt h.mounted.toHierarchy h.folder
    have below := (perm_dueBelow lt order).append_right (folders.flatMap (d.dueBelow l recursive))
    have due := accounts.due
    rw [List.flatMap_nil, List.nil_append, List.flatMap_cons] at due
    exact (below.append_left done).trans due

/-- An entry that has nothing due can be passed over. -/
theorem Accounts.skip
    (accounts : Accounts d root filter recursive l done folders sub
      ⟨stack, current, (name, e) :: reading, found⟩)
    (nothing : d.dueAt l recursive sub (name, e) = []) :
    Accounts d root filter recursive l done folders sub ⟨stack, current, reading, found⟩ := by
  have due := accounts.due
  rw [List.flatMap_cons, nothing, List.nil_append] at due
  exact { accounts with
    reading := fun entry hentry => accounts.reading entry (List.mem_cons_of_mem _ hentry)
    due }

/-- A folder that comes on the stack has the same due as it had as an entry. -/
theorem Accounts.descend
    (accounts : Accounts d root filter recursive l done folders sub
      ⟨stack, current, (name, e) :: reading, found⟩)
    (reached : d.Reached l recursive (sub ++ [name]))
    (below : d.dueAt l recursive sub (name, e) = d.dueBelow l recursive (sub ++ [name])) :
    Accounts d root filter recursive l done ((sub ++ [name]) :: folders) sub
      ⟨root.along (sub ++ [name]) :: stack, current, reading, found⟩ := by
  have due := accounts.due
  rw [List.flatMap_cons, below] at due
  refine { accounts with
    stack := congrArg (root.along (sub ++ [name]) :: ·) accounts.stack
    reached := ?_
    reading := fun entry hentry => accounts.reading entry (List.mem_cons_of_mem _ hentry)
    due := ?_ }
  · rw [List.forall_mem_cons]
    exact ⟨reached, accounts.reached⟩
  · -- it comes behind what is due at the other entries
    refine List.Perm.trans (List.Perm.append_left done ?_) due
    rw [List.flatMap_cons, List.append_assoc]
    exact List.perm_append_comm_assoc _ _ _

/-- A file or a link that is looked at is done with. -/
theorem Accounts.file
    (accounts : Accounts d root filter recursive l done folders sub
      ⟨stack, current, (name, e) :: reading, found⟩)
    (itself : d.dueAt l recursive sub (name, e) = [sub ++ [name]])
    (sound : ¬ d.Broken root filter (sub ++ [name])) :
    Accounts d root filter recursive l (done ++ [sub ++ [name]]) folders sub
      (after ⟨stack, current, reading, found⟩
        ((d.fileAt root filter (sub ++ [name])).elim .skip .file)) := by
  have due := accounts.due
  rw [List.flatMap_cons, itself, List.append_assoc, ← List.append_assoc done] at due
  have known : found = done.filterMap (d.fileAt root filter) := accounts.found
  rw [after_elim]
  refine { accounts with
    due
    reading := fun entry hentry => accounts.reading entry (List.mem_cons_of_mem _ hentry)
    found := ?_
    sound := ?_ }
  · show found ++ (d.fileAt root filter (sub ++ [name])).toList = _
    rw [known, List.filterMap_append, filterMap_cons_eq_append, List.filterMap_nil, List.append_nil]
  · rw [List.forall_mem_append, List.forall_mem_singleton]
    exact ⟨accounts.sound, sound⟩

/-- The first folder on the stack can be read. -/
theorem Accounts.exists_top (h : d.Readable root l recursive) {folder : Path}
    (accounts : Accounts d root filter recursive l done folders sub
      ⟨folder :: stack, current, reading, found⟩) :
    ∃ names others, folders = names :: others ∧ folder = root.along names ∧
      stack = others.map root.along ∧ d.readFolder folder = .ok (d.entriesIn (l ++ names)) := by
  obtain ⟨names, others, rfl, rfl, rfl⟩ := List.map_eq_cons_iff.1 accounts.stack.symm
  exact ⟨names, others, rfl, rfl, rfl,
    h.readFolder_along (accounts.reached names List.mem_cons_self)⟩

/-- What becomes of the next entry. -/
theorem Accounts.judge_cases (h : d.Readable root l recursive)
    (accounts : Accounts d root filter recursive l done folders sub
      ⟨stack, current, (name, e) :: reading, found⟩) :
    (∃ done' folders', ∃ verdict,
      d.judge root filter recursive (current.join ⟨name⟩) name e = .ok verdict ∧
      Accounts d root filter recursive l done' folders' sub
        (after ⟨stack, current, reading, found⟩ verdict)) ∨
    (∃ error, d.judge root filter recursive (current.join ⟨name⟩) name e = .error error) ∧
      d.LookedAt l recursive (sub ++ [name]) ∧ d.Broken root filter (sub ++ [name]) := by
  obtain rfl : current = root.along sub := accounts.current
  rw [← Path.along_concat]
  have there := accounts.reading (name, e) List.mem_cons_self
  rcases h.judge_cases filter there accounts.inside with
    ⟨passed, nothing⟩ | ⟨entered, reached, below⟩ |
    ⟨looked, itself, ⟨broken, failed⟩ | ⟨sound, judged⟩⟩
  · exact .inl ⟨_, _, _, passed, accounts.skip nothing⟩
  · exact .inl ⟨_, _, _, entered, accounts.descend reached below⟩
  · exact .inr ⟨failed, looked, broken⟩
  · exact .inl ⟨_, _, _, judged, accounts.file itself sound⟩

end Step

/-- **One step** of a walk that accounts for all entries still accounts for them. -/
theorem Accounts.step (h : d.Readable root l recursive)
    (accounts : Accounts d root filter recursive l done folders sub s)
    (step : Step d root filter recursive s s') :
    ∃ done' folders' sub', Accounts d root filter recursive l done' folders' sub' s' := by
  cases step with
  | @read folder current stack found listing entries listed order =>
    -- what is listed are the entries of the first folder on the stack
    obtain ⟨names, others, rfl, rfl, rfl, readable⟩ := accounts.exists_top h
    rw [readable] at listed
    cases listed
    exact ⟨done, others, names, accounts.read h order⟩
  | @gone folder current stack found failure failed missing =>
    -- a folder that was seen is not gone
    obtain ⟨names, others, -, -, -, readable⟩ := accounts.exists_top h
    rw [readable] at failed
    cases failed
  | @look current stack name e reading found verdict judged =>
    rcases accounts.judge_cases h with
      ⟨done', folders', verdict', same, accounts'⟩ | ⟨⟨error, failed⟩, -⟩
    · rw [same] at judged
      cases judged
      exact ⟨done', folders', sub, accounts'⟩
    · rw [failed] at judged
      cases judged

end Walking

/-! ### What a walk has found in the end -/

/-- **A walk has an exact result**: a success if each candidate leads somewhere or is missing, and
then the files that candidates lead to, each once. -/
structure Exact (d : Disk) (root : Path) (filter : MediaFilter) (l : Location) (recursive : Bool)
    (r : Except StorageError (List SourceFile)) : Prop where
  ok_iff : (∃ found, r = .ok found) ↔ ∀ names, d.Candidate root filter l recursive names →
    ∀ failure, d.lookUp (root.join (Path.ofNames names)) = .error failure →
      failure.kind = .notFound
  mem_iff : ∀ found, r = .ok found → ∀ f, f ∈ found ↔
    ∃ names, d.Candidate root filter l recursive names ∧
      ∃ g, d.lookUp (root.join (Path.ofNames names)) = .ok (.file g) ∧
        f = { SourceFile.under root (Path.ofNames names) with
          created := g.created, modified := g.modified }
  distinct : ∀ found, r = .ok found → found.Pairwise fun f f' => ¬ Same f.path f'.path

/-- **All that is looked at**, and found if it leads to a file, is an exact result if nothing that is
looked at is broken. -/
theorem Readable.exact_ok (h : d.Readable root l recursive) {done : List (List Bytes)}
    (all : done.Perm (d.filesBelow (d.depthOf recursive) l))
    (sound : ∀ names ∈ done, ¬ d.Broken root filter names) :
    d.Exact root filter l recursive (.ok (done.filterMap (d.fileAt root filter))) := by
  have tree : d.Hierarchy := h.mounted.toHierarchy
  have looked : ∀ names, names ∈ done ↔ d.LookedAt l recursive names := fun names =>
    all.mem_iff.trans (tree.mem_filesBelow_depthOf h.folder)
  refine ⟨?_, ?_, ?_⟩
  · refine iff_of_true ⟨_, rfl⟩ ?_
    intro names candidate failure failed
    by_contra found
    exact sound names ((looked names).2 candidate.toLookedAt)
      ⟨candidate.passes, failure, failed, found⟩
  · rintro found ⟨⟩ f
    simp only [List.mem_filterMap, looked, fileAt_eq_some_iff]
    constructor
    · rintro ⟨names, there, passes, file⟩
      exact ⟨names, ⟨there, passes⟩, file⟩
    · rintro ⟨names, candidate, file⟩
      exact ⟨names, candidate.toLookedAt, candidate.passes, file⟩
  · rintro found ⟨⟩
    -- the names on the way to what is looked at are different, and the paths are spelled by them
    have apart := (all.nodup_iff.2 (tree.nodup_filesBelow _ l)).imp_of_mem
      (S := fun a a' => d.LookedAt l recursive a ∧ d.LookedAt l recursive a' ∧ a ≠ a')
      fun ha ha' apart => ⟨(looked _).1 ha, (looked _).1 ha', apart⟩
    refine List.Pairwise.filterMap _ ?_ apart
    rintro names names' ⟨there, there', different⟩ f hf f' hf' same
    obtain ⟨-, g, -, rfl⟩ := fileAt_eq_some_iff.1 hf
    obtain ⟨-, g', -, rfl⟩ := fileAt_eq_some_iff.1 hf'
    exact different (Path.eq_of_same_ofNames (there.isName tree) (there'.isName tree) same)

/-- A failure is an exact result if something that is looked at is broken. -/
theorem exact_error {error : StorageError} (looked : d.LookedAt l recursive names)
    (broken : d.Broken root filter names) : d.Exact root filter l recursive (.error error) := by
  obtain ⟨passes, failure, failed, found⟩ := broken
  refine ⟨iff_of_false ?_ ?_, nofun, nofun⟩
  · rintro ⟨found, ⟨⟩⟩
  · intro missing
    exact found (missing names ⟨looked, passes⟩ failure failed)

namespace Walking

variable {s : Walking} {done folders : List (List Bytes)} {error : StorageError}

/-- **A walk breaks off** at a broken entry only. -/
theorem Accounts.exact_error (h : d.Readable root l recursive)
    (accounts : Accounts d root filter recursive l done folders sub s)
    (fails : Fails d root filter recursive s error) :
    d.Exact root filter l recursive (.error error) := by
  cases fails with
  | @read folder current stack found failure failed fatal =>
    obtain ⟨names, others, -, -, -, readable⟩ := accounts.exists_top h
    rw [readable] at failed
    cases failed
  | @look current stack name e reading found error judged =>
    rcases accounts.judge_cases h with ⟨done', folders', verdict, passed, -⟩ | ⟨-, looked, broken⟩
    · rw [passed] at judged
      cases judged
    · exact Disk.exact_error looked broken

/-- **However a walk goes on** that accounts for all entries, its result is exact. -/
theorem Accounts.exact (h : d.Readable root l recursive)
    (run : Run d root filter recursive s r)
    (accounts : Accounts d root filter recursive l done folders sub s) :
    d.Exact root filter l recursive r := by
  induction run generalizing done folders sub with
  | @done current found =>
    -- nothing is left that is due
    obtain rfl : folders = [] := List.map_eq_nil_iff.1 accounts.stack.symm
    have all := accounts.due
    rw [List.flatMap_nil, List.flatMap_nil, List.append_nil, List.append_nil] at all
    obtain rfl : found = done.filterMap (d.fileAt root filter) := accounts.found
    exact h.exact_ok all accounts.sound
  | failed fails => exact accounts.exact_error h fails
  | step step rest ih =>
    obtain ⟨done', folders', sub', accounts'⟩ := accounts.step h step
    exact ih accounts'

end Walking
end PhotoImport.Disk
