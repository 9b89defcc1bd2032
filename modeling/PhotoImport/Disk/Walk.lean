import PhotoImport.Disk.Transfer
import PhotoImport.Storage.Store

/-!
# Finding files on a disk

A walk reads the source root and, if it is recursive, every folder below it. Links to folders are
not entered, so each folder is read once and the walk ends; links to files are found like files. An
entry that is hidden, or that leads nowhere, is passed over.

With `Disk.find` a disk is a store.
-/

namespace PhotoImport
namespace Disk

/-- The file found at a path below a root, if what lies there is wanted and leads to a file. -/
def foundFile (d : Disk) (root : Path) (filter : MediaFilter) (p : Path) :
    Except StorageError (Option SourceFile) :=
  if filter.passes p = false then .ok none
  else
    match d.lookUp p with
    | .error failure =>
      if failure.kind = .notFound then .ok none else .error (.ofFailure failure p)
    | .ok (.file f) =>
      match p.stripBase? root with
      | none => .error (.invalidPath p)
      | some below =>
        .ok (some { SourceFile.under root below with created := f.created, modified := f.modified })
    | .ok _ => .ok none

/-- The visible entries of the folder that a path leads to. -/
def visibleEntries (d : Disk) (folder : Path) : Except SystemFailure (List (Path × DiskEntry)) :=
  match d.resolve folder with
  | .error failure => .error failure
  | .ok l =>
    if d.isFolder l then
      .ok (((d.entriesIn l).filter fun e => e.1.head? ≠ some Path.dot).map fun (name, e) =>
        (folder.join ⟨name⟩, e))
    else .error .notFolder

/-- The wanted files in a folder and, down to a depth, in the folders below it. -/
def walk (d : Disk) (root : Path) (filter : MediaFilter) :
    (depth : Nat) → (folder : Path) → Except StorageError (List SourceFile)
  | 0, _ => .ok []
  | depth + 1, folder =>
    match d.visibleEntries folder with
    | .error failure =>
      if failure.kind = .notFound ∧ ¬ Path.Same folder root then .ok []
      else .error (.ofFailure failure folder)
    | .ok entries => do
      let here ← (entries.filter (·.2 ≠ .folder)).mapM fun e => d.foundFile root filter e.1
      let below ← (entries.filter (·.2 = .folder)).mapM fun e => d.walk root filter depth e.1
      pure (here.filterMap id ++ below.flatten)

/-- The wanted files below a folder. No folder lies deeper than there are entries. -/
def find (d : Disk) (root : Path) (filter : MediaFilter) (recursive : Bool) :
    Except StorageError (List SourceFile) :=
  d.walk root filter (if recursive then d.entries.length + 1 else 1) root

instance : Store Disk where
  find root filter recursive := .ofRead fun d => d.find root filter recursive
  createDir path := .ofResult (createDir path)
  copy source target := .ofResult (copy source target)
  rename source target := .ofResult (rename source target)
  size d := d.entries.length + 2

end Disk
end PhotoImport
