import PhotoImport.Disk.Transfer

/-!
# Writing to files

A program that runs on a disk writes to files by path. A file that is missing is made first.
-/

namespace PhotoImport
namespace Disk

/-- The disk with a file for writing to, if there was none. -/
def openFile (d : Disk) (p : Path) : Except SystemFailure (Disk × Location × DiskFile) :=
  match d.resolve p with
  | .ok l =>
    match d.entryAt? l with
    | some (.file f) => .ok (d, l, f)
    | some _ => .error .isFolder
    | none => .error .missing
  | .error failure =>
    if failure.kind = .notFound then
      match d.freeLocation p with
      | .error failure => .error failure
      | .ok l => .ok (d.add l (.file { data := [] }), l, { data := [] })
    else .error failure

/-- Writes to a file, behind what it holds or in place of it. -/
def write (d : Disk) (p : Path) (data : Bytes) (behind : Bool) : Except SystemFailure Disk :=
  match d.openFile p with
  | .error failure => .error failure
  | .ok (d, l, f) =>
    .ok (d.replace l (.file { f with
      data := (if behind then f.data else []) ++ data, modified := none }))

end Disk
end PhotoImport
