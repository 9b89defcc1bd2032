import PhotoImport.Storage.Store
import PhotoImport.Order.SortedList

/-!
# Files in memory

A store that consists of a list of files, a list of folders, and a list of paths that must not be
written to. It remembers every call that may change it, with those that failed. Paths are told apart
by their components, and of two spellings of one path the first stays.

The lists stand for maps and sets. That no place is in one of them twice, and that the empty path is
never a folder, is part of the type: what is put at a place replaces what was there
(`Memory.distinct_putFile`), and a folder is added only if it is not there (`Memory.distinct_addDirs`).
-/

namespace PhotoImport

/-- A file in memory. -/
structure StoredFile where
  data : Bytes
  created : Option DateTime := none
  modified : Option DateTime := none
deriving DecidableEq

/-- A call that may change a store. -/
inductive StoreCall where
  | createDir (path : Path)
  | copy (source target : Path)
  | rename (source target : Path)
deriving DecidableEq

/-- Files in memory. -/
structure Memory where
  files : List (Path × StoredFile) := []
  dirs : List Path := []
  denied : List Path := []
  /-- The calls made so far, in order. -/
  calls : List StoreCall := []
  /-- No two files are at one place. -/
  files_distinct : files.Pairwise fun a b => ¬ Path.Same a.1 b.1 := by exact .nil
  /-- No two folders are at one place. -/
  dirs_distinct : dirs.Pairwise fun p q => ¬ Path.Same p q := by exact .nil
  /-- The empty path is no folder. -/
  empty_notMem_dirs : Path.empty ∉ dirs := by exact List.not_mem_nil

namespace Memory

/-! ### Looking -/

/-- Whether a list of paths has one that names the same place as `p`. -/
def hasPath (paths : List Path) (p : Path) : Bool := paths.any fun q => decide (Path.Same q p)

/-- The file at a path. -/
def file? (m : Memory) (p : Path) : Option StoredFile :=
  (m.files.find? fun entry => decide (Path.Same entry.1 p)).map (·.2)

/-- Whether there is a folder at a path. -/
def isDir (m : Memory) (p : Path) : Bool := hasPath m.dirs p

/-- Whether there is anything at a path. -/
def occupied (m : Memory) (p : Path) : Bool := (m.file? p).isSome || m.isDir p

/-- The contents of the file at a path. -/
def read? (m : Memory) (p : Path) : Option Bytes := (m.file? p).map (·.data)

/-- All files in the order of their paths. -/
def listing (m : Memory) : List (Path × StoredFile) :=
  m.files.mergeSort fun a b => (a.1.compare b.1).isLE

/-! ### Building -/

/-- One more folder, unless it is there. -/
def addDir (dirs : List Path) (p : Path) : List Path := if hasPath dirs p then dirs else dirs ++ [p]

theorem distinct_addDir {dirs : List Path} (h : dirs.Pairwise fun p q => ¬ Path.Same p q)
    (p : Path) : (addDir dirs p).Pairwise fun p q => ¬ Path.Same p q := by
  unfold addDir
  split
  · exact h
  · next absent =>
    simp only [hasPath, List.any_eq_true, decide_eq_true_eq, not_exists, not_and] at absent
    exact List.pairwise_append.2 ⟨h, List.pairwise_singleton _ _, by simpa using absent⟩

theorem distinct_addDirs {dirs : List Path} (h : dirs.Pairwise fun p q => ¬ Path.Same p q)
    (ps : List Path) : (ps.foldl addDir dirs).Pairwise fun p q => ¬ Path.Same p q := by
  induction ps generalizing dirs with
  | nil => exact h
  | cons p ps ih => exact ih (distinct_addDir h p)

theorem mem_of_mem_addDirs {dirs ps : List Path} {q : Path} (h : q ∈ ps.foldl addDir dirs) :
    q ∈ dirs ∨ q ∈ ps := by
  induction ps generalizing dirs with
  | nil => exact .inl h
  | cons p ps ih =>
    rcases ih h with h | h
    · unfold addDir at h
      split at h
      · exact .inl h
      · rcases List.mem_append.1 h with h | h
        · exact .inl h
        · exact .inr (by simp_all)
    · exact .inr (List.mem_cons_of_mem _ h)

/-- A folder and everything above it, but not the empty path. -/
def addDirs (m : Memory) (p : Path) : Memory :=
  { m with
    dirs := (p.ancestors.filter (· ≠ Path.empty)).foldl addDir m.dirs
    dirs_distinct := distinct_addDirs m.dirs_distinct _
    empty_notMem_dirs := fun h => by
      rcases mem_of_mem_addDirs h with h | h
      · exact m.empty_notMem_dirs h
      · simp at h }

/-- The files with one put at a path, in place of the one that was there. -/
def putFile (files : List (Path × StoredFile)) (p : Path) (f : StoredFile) :
    List (Path × StoredFile) :=
  if files.any fun entry => decide (Path.Same entry.1 p) then
    files.map fun entry => if Path.Same entry.1 p then (entry.1, f) else entry
  else files ++ [(p, f)]

/-- The files without the one at a path. -/
def removeFile (files : List (Path × StoredFile)) (p : Path) : List (Path × StoredFile) :=
  files.filter fun entry => !decide (Path.Same entry.1 p)

theorem distinct_putFile {files : List (Path × StoredFile)}
    (h : files.Pairwise fun a b => ¬ Path.Same a.1 b.1) (p : Path) (f : StoredFile) :
    (putFile files p f).Pairwise fun a b => ¬ Path.Same a.1 b.1 := by
  unfold putFile
  split
  · -- the places stay as they are
    refine List.pairwise_map.2 (h.imp fun {a b} apart => ?_)
    split <;> split <;> exact apart
  · next absent =>
    simp only [List.any_eq_true, decide_eq_true_eq, not_exists, not_and] at absent
    exact List.pairwise_append.2 ⟨h, List.pairwise_singleton _ _, by simpa using absent⟩

theorem distinct_removeFile {files : List (Path × StoredFile)}
    (h : files.Pairwise fun a b => ¬ Path.Same a.1 b.1) (p : Path) :
    (removeFile files p).Pairwise fun a b => ¬ Path.Same a.1 b.1 :=
  h.filter _

/-- The store with a file put at a path. -/
def withEntry (m : Memory) (p : Path) (f : StoredFile) : Memory :=
  { m with files := putFile m.files p f, files_distinct := distinct_putFile m.files_distinct p f }

/-- The store without the file at a path. -/
def without (m : Memory) (p : Path) : Memory :=
  { m with files := removeFile m.files p, files_distinct := distinct_removeFile m.files_distinct p }

/-- The store with one more file and the folders above it. -/
def withFile (m : Memory) (p : Path) (data : Bytes) : Memory :=
  let m := match p.parent? with
    | none => m
    | some parent => m.addDirs parent
  m.withEntry p { data }

/-- The store that holds some files and the folders above them. -/
def ofFiles (files : List (Path × Bytes)) : Memory :=
  files.foldl (fun m (p, data) => m.withFile p data) {}

/-- The store with dates given to a file that is there. -/
def withDates? (m : Memory) (p : Path) (created modified : Option DateTime) : Option Memory :=
  (m.file? p).map fun f => m.withEntry p { f with created, modified }

/-- The store with one more path that must not be written to. -/
def deny (m : Memory) (p : Path) : Memory := { m with denied := m.denied ++ [p] }

/-! ### The operations of a store -/

/-- Whether every step of a path below the root is visible. -/
def isVisible (p : Path) : Bool := p.components.all fun c => !c.isHidden

/-- The file found below `root` for an entry, if it is wanted. -/
def candidate? (root : Path) (filter : MediaFilter) (recursive : Bool)
    (entry : Path × StoredFile) : Option SourceFile := do
  let below ← entry.1.stripBase? root
  if isVisible below ∧ (recursive ∨ below.components.length = 1) ∧ filter.passes entry.1 then
    some { SourceFile.under root below with
      created := entry.2.created, modified := entry.2.modified }
  else none

/-- The wanted files below a folder. -/
def find (m : Memory) (root : Path) (filter : MediaFilter) (recursive : Bool) :
    Except StorageError (List SourceFile) :=
  if m.isDir root then .ok (m.files.filterMap (candidate? root filter recursive))
  else .error (.notFound root)

/-- The store after a call has been noted. -/
def note (m : Memory) (call : StoreCall) : Memory := { m with calls := m.calls ++ [call] }

/-- What forbids a file at a path. -/
def obstacle? (m : Memory) (p : Path) : Option StorageError :=
  if hasPath m.denied p then some (.permissionDenied p)
  else if m.occupied p then some (.alreadyExists p)
  else
    match p.parent? with
    | none => none
    | some parent =>
      if parent ≠ Path.empty ∧ ¬ m.isDir parent then some (.notFound parent) else none

/-- Makes a folder. -/
def createDir (p : Path) (m : Memory) : Except StorageError Unit × Memory :=
  let m := m.note (.createDir p)
  if hasPath m.denied p then (.error (.permissionDenied p), m)
  else if (m.file? p).isSome then (.error (.alreadyExists p), m)
  else (.ok (), m.addDirs p)

/-- Copies a file. -/
def copy (source target : Path) (m : Memory) : Except StorageError Unit × Memory :=
  let m := m.note (.copy source target)
  match m.file? source with
  | none => (.error (.notFound source), m)
  | some f =>
    match m.obstacle? target with
    | some e => (.error e, m)
    | none => (.ok (), m.withEntry target f)

/-- Moves a file. -/
def rename (source target : Path) (m : Memory) : Except StorageError Unit × Memory :=
  let m := m.note (.rename source target)
  match m.file? source with
  | none => (.error (.notFound source), m)
  | some f =>
    match m.obstacle? target with
    | some e => (.error e, m)
    | none => (.ok (), (m.without source).withEntry target f)

instance : Store Memory where
  find root filter recursive := .ofRead fun m => m.find root filter recursive
  createDir path := .ofResult (createDir path)
  copy source target := .ofResult (copy source target)
  rename source target := .ofResult (rename source target)
  size m := m.files.length + m.dirs.length

end Memory
end PhotoImport
