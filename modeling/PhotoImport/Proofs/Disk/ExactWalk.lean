import PhotoImport.Proofs.Disk.Accounts

/-!
# The walk on a disk is exact

The files below a folder are found by a recursion over its folders. In one of the orders in which
a system may list the entries, this is what a walk with a list of folders does: it looks at the files
and links of a folder first, then at the folders, and at hidden entries last (`Walking.run_find`).
So what is known of all such walks is known of `Disk.find` (`disk_walk_is_exact`).
-/

namespace PhotoImport.Disk

open PhotoImport.Path (Same IsName dot)

variable {d : Disk} {root folder : Path} {filter : MediaFilter} {recursive : Bool} {l : Location}
  {k : Nat} {entries : List (Bytes × DiskEntry)} {sub : List Bytes}

/-! ### A folder of the recursion -/

/-- Entries of a folder, with their paths. -/
def placed (folder : Path) (entries : List (Bytes × DiskEntry)) : List (Path × DiskEntry) :=
  entries.map fun entry => (folder.join ⟨entry.1⟩, entry.2)

/-- The visible entries of a folder that is reached. -/
theorem Readable.visibleEntries_along (h : d.Readable root l recursive)
    (reached : d.Reached l recursive sub) :
    d.visibleEntries (root.along sub) = .ok (placed (root.along sub) (d.visibleIn (l ++ sub))) := by
  have folder := reached.isFolder h.folder
  rw [visibleEntries, h.mounted.resolve_along h.resolved folder (h.short sub reached)]
  exact if_pos folder

/-- **What the recursion finds in a folder** that is reached. -/
theorem Readable.walk_succ (h : d.Readable root l recursive) (reached : d.Reached l recursive sub)
    (filter : MediaFilter) (k : Nat) :
    d.walk root filter (k + 1) (root.along sub) = (do
      let here ← (placed (root.along sub) (d.leavesIn (l ++ sub))).mapM fun e =>
        d.foundFile root filter e.1
      let below ← (placed (root.along sub) (d.foldersIn (l ++ sub))).mapM fun e =>
        d.walk root filter k e.1
      pure (here.filterMap id ++ below.flatten)) := by
  rw [walk, h.visibleEntries_along reached]
  simp only [placed, List.filter_map, leavesIn, foldersIn, Function.comp_def]

theorem mapM_cons_ok {ε α β : Type} {call : α → Except ε β} {x : α} {xs : List α} {y : β}
    {ys : List β} (h : call x = .ok y) (hs : xs.mapM call = .ok ys) :
    (x :: xs).mapM call = .ok (y :: ys) := by
  rw [List.mapM_cons, h, hs]
  rfl

/-- The recursion finds nothing where it ends. -/
theorem exists_mapM_walk_zero (d : Disk) (root : Path) (filter : MediaFilter)
    (folders : List (Path × DiskEntry)) :
    ∃ below, (folders.mapM fun e => d.walk root filter 0 e.1) = .ok below ∧ below.flatten = [] := by
  induction folders with
  | nil => exact ⟨[], rfl, rfl⟩
  | cons e folders ih =>
    obtain ⟨below, hbelow, nothing⟩ := ih
    exact ⟨[] :: below, mapM_cons_ok rfl hbelow, nothing⟩

/-! ### One run for the recursion -/

namespace Walking

variable {stack : List Path} {current : Path} {reading : List (Bytes × DiskEntry)}
  {found : List SourceFile} {r : Except StorageError (List SourceFile)}

/-- **A walk does what the recursion does** with a folder on its stack: it goes on with what the
recursion finds, or fails as it does. -/
def Recurs (d : Disk) (root : Path) (filter : MediaFilter) (recursive : Bool) (k : Nat)
    (folder : Path) : Prop :=
  ∀ stack current found (next : List SourceFile → Except StorageError (List SourceFile)),
    (∀ files, d.walk root filter k folder = .ok files → ∀ current,
      Run d root filter recursive ⟨stack, current, [], found ++ files⟩ (next files)) →
    Run d root filter recursive ⟨folder :: stack, current, [], found⟩
      (d.walk root filter k folder >>= next)

/-- Entries that are all passed over. -/
theorem run_skip
    (passed : ∀ entry ∈ entries, d.judge root filter recursive (current.join ⟨entry.1⟩) entry.1
      entry.2 = .ok .skip)
    (rest : Run d root filter recursive ⟨stack, current, reading, found⟩ r) :
    Run d root filter recursive ⟨stack, current, entries ++ reading, found⟩ r := by
  induction entries with
  | nil => exact rest
  | cons entry entries ih =>
    rw [List.forall_mem_cons] at passed
    exact .step (.look passed.1) (ih passed.2)

/-- Folders that all come on the stack, so that the last one is the first there. -/
theorem run_descend
    (entered : ∀ entry ∈ entries, d.judge root filter recursive (current.join ⟨entry.1⟩) entry.1
      entry.2 = .ok (.descend (current.join ⟨entry.1⟩)))
    (rest : Run d root filter recursive
      ⟨((placed current entries).map (·.1)).reverse ++ stack, current, reading, found⟩ r) :
    Run d root filter recursive ⟨stack, current, entries ++ reading, found⟩ r := by
  induction entries generalizing stack with
  | nil => exact rest
  | cons entry entries ih =>
    rw [List.forall_mem_cons] at entered
    rw [placed, List.map_cons, List.map_cons, List.reverse_cons, List.append_assoc] at rest
    exact .step (.look entered.1) (ih entered.2 rest)

/-- A file or a link that is looked at. -/
theorem run_file {entry : Bytes × DiskEntry}
    {next : Option SourceFile → Except StorageError (List SourceFile)}
    (judged : d.judge root filter recursive (current.join ⟨entry.1⟩) entry.1 entry.2
      = (d.foundFile root filter (current.join ⟨entry.1⟩)).map fun found => found.elim .skip .file)
    (rest : ∀ file, d.foundFile root filter (current.join ⟨entry.1⟩) = .ok file →
      Run d root filter recursive ⟨stack, current, reading, found ++ file.toList⟩ (next file)) :
    Run d root filter recursive ⟨stack, current, entry :: reading, found⟩
      (d.foundFile root filter (current.join ⟨entry.1⟩) >>= next) := by
  cases hfile : d.foundFile root filter (current.join ⟨entry.1⟩) with
  | error error =>
    rw [hfile] at judged
    exact .failed (.look judged)
  | ok file =>
    rw [hfile] at judged
    refine .step (.look judged) ?_
    show Run _ _ _ _ (after _ (file.elim .skip .file)) _
    rw [after_elim]
    exact rest file hfile

/-- **Files and links** that are looked at one after another. -/
theorem run_files {next : List (Option SourceFile) → Except StorageError (List SourceFile)}
    (judged : ∀ entry ∈ entries, d.judge root filter recursive (current.join ⟨entry.1⟩) entry.1
        entry.2
      = (d.foundFile root filter (current.join ⟨entry.1⟩)).map fun found => found.elim .skip .file)
    (rest : ∀ here, ((placed current entries).mapM fun e => d.foundFile root filter e.1)
        = .ok here →
      Run d root filter recursive ⟨stack, current, reading, found ++ here.filterMap id⟩
        (next here)) :
    Run d root filter recursive ⟨stack, current, entries ++ reading, found⟩
      (((placed current entries).mapM fun e => d.foundFile root filter e.1) >>= next) := by
  induction entries generalizing found next with
  | nil =>
    have rest := rest [] rfl
    rwa [List.filterMap_nil, List.append_nil] at rest
  | cons entry entries ih =>
    rw [List.forall_mem_cons] at judged
    rw [placed, List.map_cons, List.mapM_cons, bind_assoc]
    refine run_file judged.1 fun file hfile => ?_
    rw [bind_assoc]
    refine ih judged.2 fun here hhere => ?_
    have rest := rest (file :: here) (mapM_cons_ok hfile hhere)
    rwa [filterMap_cons_eq_append, ← List.append_assoc] at rest

/-- **Folders on the stack** that are walked one after another. -/
theorem run_folders {next : List (List SourceFile) → Except StorageError (List SourceFile)}
    (recurs : ∀ entry ∈ entries, Recurs d root filter recursive k (folder.join ⟨entry.1⟩))
    (rest : ∀ below, ((placed folder entries).mapM fun e => d.walk root filter k e.1) = .ok below →
      ∀ current, Run d root filter recursive ⟨stack, current, [], found ++ below.flatten⟩
        (next below)) :
    Run d root filter recursive ⟨(placed folder entries).map (·.1) ++ stack, current, [], found⟩
      (((placed folder entries).mapM fun e => d.walk root filter k e.1) >>= next) := by
  induction entries generalizing current found next with
  | nil =>
    have rest := rest [] rfl current
    rwa [List.flatten_nil, List.append_nil] at rest
  | cons entry entries ih =>
    rw [List.forall_mem_cons] at recurs
    rw [placed, List.map_cons, List.map_cons, List.mapM_cons, bind_assoc]
    refine recurs.1 _ _ _ _ fun files hfiles current => ?_
    rw [bind_assoc]
    refine ih recurs.2 fun below hbelow current => ?_
    have rest := rest (files :: below) (mapM_cons_ok hfiles hbelow) current
    rwa [List.flatten_cons, ← List.append_assoc] at rest

/-- **Behind the files** of a folder, a walk does what the recursion does with the folders in it. -/
theorem run_below {next : List (List SourceFile) → Except StorageError (List SourceFile)}
    (recurs : recursive = true → ∀ entry ∈ d.foldersIn l,
      Recurs d root filter recursive k (folder.join ⟨entry.1⟩))
    (flat : recursive = false → k = 0)
    (rest : ∀ below, ((placed folder (d.foldersIn l)).mapM fun e => d.walk root filter k e.1)
        = .ok below → ∀ current,
      Run d root filter recursive ⟨stack, current, [], found ++ below.flatten⟩ (next below)) :
    Run d root filter recursive
      ⟨stack, folder, (d.foldersIn l).reverse ++ (d.hiddenIn l ++ []), found⟩
      (((placed folder (d.foldersIn l)).mapM fun e => d.walk root filter k e.1) >>= next) := by
  have folders : ∀ entry ∈ (d.foldersIn l).reverse,
      d.judge root filter recursive (folder.join ⟨entry.1⟩) entry.1 entry.2
        = .ok (if recursive then .descend (folder.join ⟨entry.1⟩) else .skip) := by
    intro entry hentry
    obtain ⟨-, visible, isFolder⟩ := mem_foldersIn.1 (List.mem_reverse.1 hentry)
    rw [judge, if_neg visible, if_pos isFolder]
  have hidden : ∀ entry ∈ d.hiddenIn l,
      d.judge root filter recursive (folder.join ⟨entry.1⟩) entry.1 entry.2 = .ok .skip :=
    fun entry hentry => if_pos (mem_hiddenIn.1 hentry).2
  cases recursive with
  | true =>
    refine run_descend folders (run_skip hidden ?_)
    -- the last folder that was looked at is the first on the stack
    have onStack : ((placed folder (d.foldersIn l).reverse).map (·.1)).reverse
        = (placed folder (d.foldersIn l)).map (·.1) := by
      rw [placed, List.map_reverse, List.map_reverse, List.reverse_reverse]
      rfl
    rw [onStack]
    exact run_folders (recurs rfl) rest
  | false =>
    -- a walk that is not recursive passes the folders over, and the recursion ends in them
    refine run_skip folders (run_skip hidden ?_)
    obtain rfl := flat rfl
    obtain ⟨below, hbelow, nothing⟩ :=
      exists_mapM_walk_zero d root filter (placed folder (d.foldersIn l))
    have rest := rest below hbelow folder
    rw [nothing, List.append_nil] at rest
    rw [hbelow]
    exact rest

/-- **A walk does what the recursion does** at each folder that is reached. -/
theorem recurs_along (h : d.Readable root l recursive) (filter : MediaFilter)
    (reached : d.Reached l recursive sub) (deep : sub.length + k = d.depthOf recursive) :
    Recurs d root filter recursive k (root.along sub) := by
  induction k generalizing sub with
  | zero =>
    -- the recursion does not end before the walk: no folder is that deep
    have lt := reached.length_lt h.mounted.toHierarchy h.folder
    omega
  | succ k ih =>
    intro stack current found next rest
    rw [h.walk_succ reached] at rest ⊢
    rw [bind_assoc]
    -- the folder is read in the order of the recursion, with the hidden entries at the end
    have order : (d.leavesIn (l ++ sub) ++
        ((d.foldersIn (l ++ sub)).reverse ++ (d.hiddenIn (l ++ sub) ++ []))).Perm
          (d.entriesIn (l ++ sub)) := by
      rw [List.append_nil]
      refine (List.Perm.append_left _ ?_).trans (perm_entriesIn d (l ++ sub))
      exact (List.reverse_perm _).append_right _
    refine .step (.read (h.readFolder_along reached) order) (run_files ?_ fun here hhere => ?_)
    · intro entry hentry
      obtain ⟨-, visible, noFolder⟩ := mem_leavesIn.1 hentry
      rw [judge, if_neg visible, if_neg noFolder]
    rw [bind_assoc]
    refine run_below ?_ ?_ fun below hbelow current => ?_
    · intro deeper entry hentry
      obtain ⟨listed, visible, folder⟩ := mem_foldersIn.1 hentry
      rw [← Path.along_concat]
      refine ih (.within deeper reached visible ?_) ?_
      · rw [← List.append_assoc, ← folder]
        exact (h.mounted.entryAt?_iff (by simp)).2 (mem_entriesIn.1 listed)
      · rw [List.length_append, List.length_singleton]
        omega
    · intro flat
      rw [depthOf, if_neg (by simp [flat])] at deep
      omega
    · rw [List.append_assoc]
      exact rest _ (by rw [hhere, hbelow]; rfl) current

/-- **A walk that begins** can do what the recursion does. -/
theorem run_find (h : d.Readable root l recursive) (filter : MediaFilter) :
    Run d root filter recursive (start root) (d.find root filter recursive) := by
  have recurs := recurs_along h filter .root (k := d.depthOf recursive) (by simp)
  have run := recurs [] root [] pure fun files _ current => by
    exact .done
  rw [bind_pure] at run
  exact run

end Walking

/-! ### A root that is missing -/

section Missing

variable {failure : SystemFailure}

theorem readFolder_of_missing (missing : d.resolve root = .error failure) :
    d.readFolder root = .error failure := by
  rw [readFolder, missing]

/-- **A root that is missing** is reported by the recursion. -/
theorem find_of_missing (missing : d.resolve root = .error failure)
    (notFound : failure.kind = .notFound) (filter : MediaFilter) (recursive : Bool) :
    d.find root filter recursive = .error (.notFound root) := by
  have reported : StorageError.ofFailure failure root = .notFound root := by
    rw [StorageError.ofFailure, notFound]
  have walked : ∀ k, d.walk root filter (k + 1) root = .error (.notFound root) := by
    intro k
    rw [walk, visibleEntries, missing]
    simp only [notFound, true_and]
    rw [if_neg (not_not.2 (Same.refl root)), reported]
  unfold find
  cases recursive with
  | true => exact walked _
  | false => exact walked 0

/-- **A root that is missing** is reported by every walk. -/
theorem Walking.eq_of_missing {r : Except StorageError (List SourceFile)}
    (missing : d.resolve root = .error failure) (notFound : failure.kind = .notFound)
    (run : Run d root filter recursive (start root) r) : r = .error (.notFound root) := by
  have unread := readFolder_of_missing missing
  cases run with
  | failed fails =>
    cases fails with
    | read failed fatal =>
      rw [unread] at failed
      cases failed
      rw [StorageError.ofFailure, notFound]
  | step step rest =>
    cases step with
    | read listed order =>
      rw [unread] at listed
      cases listed
    | gone failed gone => exact absurd (Same.refl root) gone.2

end Missing

/-! ### The walk -/

/-- **The walk on a disk ends and is exact.** On every disk that a system may have, with links of any
kind, for every filter, and whether folders below the root are searched or not:

* no walk goes on for ever, and each goes on until it is over or breaks off;
* if the root leads to a folder, and the paths of the folders that are reached from it are not too
  long, then all walks are exact, and one of them is what the recursion does;
* if the root is missing, this is what all walks and the recursion report. -/
theorem disk_walk_is_exact (d : Disk) (h : d.Mounted) (root : Path) (filter : MediaFilter)
    (recursive : Bool) :
    ((WellFounded fun s' s => Walking.Step d root filter recursive s s') ∧
      ∀ s : Walking, (s.stack = [] ∧ s.reading = []) ∨
        (∃ error, Walking.Fails d root filter recursive s error) ∨
        ∃ s', Walking.Step d root filter recursive s s') ∧
    (∀ l, d.resolve root = .ok l → d.isFolder l = true →
      (∀ names, d.Reached l recursive names → (root.along names).bytes.length ≤ pathLimit) →
      (∀ r, Walking.Run d root filter recursive (.start root) r →
        d.Exact root filter l recursive r) ∧
      Walking.Run d root filter recursive (.start root) (d.find root filter recursive) ∧
      d.Exact root filter l recursive (d.find root filter recursive)) ∧
    ∀ failure, d.resolve root = .error failure → failure.kind = .notFound →
      (∀ r, Walking.Run d root filter recursive (.start root) r → r = .error (.notFound root)) ∧
      d.find root filter recursive = .error (.notFound root) := by
  refine ⟨⟨?_, ?_⟩, ?_, ?_⟩
  · exact Walking.step_wellFounded h.toHierarchy root filter recursive
  · exact Walking.done_or_fails_or_step d root filter recursive
  · intro l resolved folder short
    have readable : d.Readable root l recursive := ⟨h, resolved, folder, short⟩
    have exact : ∀ r, Walking.Run d root filter recursive (.start root) r →
        d.Exact root filter l recursive r := fun r run =>
      (Walking.accounts_start root filter).exact readable run
    have run := Walking.run_find readable filter
    exact ⟨exact, run, exact _ run⟩
  · intro failure missing notFound
    exact ⟨fun r run => Walking.eq_of_missing missing notFound run,
      find_of_missing missing notFound filter recursive⟩

/-- A card that is reached over a link, with a picture, a link to it, a text, a link to the folder
above, a link to nothing, and, in a folder, a link to itself. -/
def linkedCard : Disk where
  entries := [([Utf8.encode "pictures"], .link (.ofText "card")),
    ([Utf8.encode "card"], .folder),
    ([Utf8.encode "card", Utf8.encode "a.jpg"], .file { data := [1] }),
    ([Utf8.encode "card", Utf8.encode "again.jpg"], .link (.ofText "a.jpg")),
    ([Utf8.encode "card", Utf8.encode "read.me"], .file { data := [2] }),
    ([Utf8.encode "card", Utf8.encode "up"], .link (.ofText "..")),
    ([Utf8.encode "card", Utf8.encode "gone.jpg"], .link (.ofText "none.jpg")),
    ([Utf8.encode "card", Utf8.encode "day"], .folder),
    ([Utf8.encode "card", Utf8.encode "day", Utf8.encode "loop.jpg"], .link (.ofText "loop.jpg"))]

/-- The filter that only pictures pass. -/
def pictures : MediaFilter where
  kind? extension := if extension = "jpg" then some "image/jpeg" else none
  patterns := [(· == "image/jpeg")]

/-- In the folder itself the picture is found twice, whatever the order of the entries, and further
down the link to itself is reported. -/
theorem disk_walk_is_exact_of_links :
    (∀ r, Walking.Run linkedCard (.ofText "pictures") pictures false (.start (.ofText "pictures")) r →
      ∃ found, r = .ok found ∧ ∀ f, f ∈ found ↔
        f = .under (.ofText "pictures") (.ofText "a.jpg") ∨
        f = .under (.ofText "pictures") (.ofText "again.jpg")) ∧
    (∀ r, Walking.Run linkedCard (.ofText "pictures") pictures true (.start (.ofText "pictures")) r →
      ∃ error, r = .error error) ∧
    linkedCard.find (.ofText "none") pictures true = .error (.notFound (.ofText "none")) := by
  have mounted : linkedCard.Mounted := {
    distinct := by decide
    rootless := by decide
    named := by decide
    folders := by decide
    working := by decide
    noNul := by decide
    short := by decide }
  have resolved : linkedCard.resolve (.ofText "pictures") = .ok [Utf8.encode "card"] := by cbv
  have missing : linkedCard.resolve (.ofText "none") = .error .missing := by cbv
  have listed : ∀ entry ∈ linkedCard.entries,
      ((Path.ofText "pictures").along (entry.1.drop 1)).bytes.length ≤ pathLimit := by decide
  have short : ∀ recursive names, linkedCard.Reached [Utf8.encode "card"] recursive names →
      ((Path.ofText "pictures").along names).bytes.length ≤ pathLimit := by
    intro recursive names reached
    cases reached with
    | root => decide
    | within deep above visible there =>
      exact listed _ ((mounted.entryAt?_iff (by simp)).1 there)
  have flat : linkedCard.find (.ofText "pictures") pictures false
      = .ok [.under (.ofText "pictures") (.ofText "a.jpg"),
        .under (.ofText "pictures") (.ofText "again.jpg")] := by cbv
  have deep : ∃ error, linkedCard.find (.ofText "pictures") pictures true = .error error :=
    ⟨_, by cbv⟩
  refine ⟨?_, ?_, ?_⟩
  · intro r run
    obtain ⟨-, exact, -⟩ := disk_walk_is_exact linkedCard mounted (.ofText "pictures") pictures false
    obtain ⟨runs, -, finds⟩ := exact _ resolved (by decide) (short false)
    obtain ⟨found, hfound⟩ := (runs r run).ok_iff.2 (finds.ok_iff.1 ⟨_, flat⟩)
    refine ⟨found, hfound, fun f => ?_⟩
    rw [(runs r run).mem_iff found hfound, ← finds.mem_iff _ flat, List.mem_pair]
  · intro r run
    obtain ⟨-, exact, -⟩ := disk_walk_is_exact linkedCard mounted (.ofText "pictures") pictures true
    obtain ⟨runs, -, finds⟩ := exact _ resolved (by decide) (short true)
    cases r with
    | error error => exact ⟨error, rfl⟩
    | ok found =>
      obtain ⟨error, failed⟩ := deep
      obtain ⟨found, hfound⟩ := finds.ok_iff.2 ((runs _ run).ok_iff.1 ⟨_, rfl⟩)
      rw [failed] at hfound
      cases hfound
  · obtain ⟨-, -, reported⟩ := disk_walk_is_exact linkedCard mounted (.ofText "none") pictures true
    exact (reported _ missing rfl).2

end PhotoImport.Disk
