import PhotoImport.Shell.Run
import PhotoImport.Storage.Action

/-!
# Starting programs

A program is an executable file that names its interpreter in its first line; the only interpreter
is the shell. A program whose path has no slash is searched for in a list of folders.
-/

namespace PhotoImport
namespace Disk

/-- Whether a path leads to a file that may be run. -/
def isProgram (d : Disk) (p : Path) : Bool :=
  match d.lookUp p with
  | .ok (.file f) => f.executable
  | _ => false

/-- The first program with a name in some folders. -/
def findProgram? (d : Disk) (folders : List Path) (name : String) : Option Path :=
  (folders.map fun folder => folder.join (Path.ofText name)).find? d.isProgram

/-- Whether a byte is a blank inside a line. -/
def isLineBlank (b : UInt8) : Bool := b == 32 || b == 9

/-- The interpreter that the first line of a file names. -/
def interpreter? (data : Bytes) : Option Path :=
  match data with
  | 35 :: 33 :: rest =>
    let line := (rest.takeWhile (· != 10)).dropWhile isLineBlank
    match line.takeWhile fun b => !isLineBlank b && b != 0 with
    | [] => none
    | name => some ⟨name⟩
  | _ => none

/-- The path of the shell. -/
def shellPath : Path := Path.ofText "/bin/sh"

/-- Runs the program at a path. -/
def startAt (p : Path) (arguments : List Bytes) (d : Disk) : Except SystemFailure ProgramRun × Disk :=
  match d.lookUp p with
  | .error failure => (.error failure, d)
  | .ok (.file f) =>
    if f.executable = false then (.error .notAllowed, d)
    else
      match interpreter? f.data with
      | none => (.error .notProgram, d)
      | some interpreter =>
        if interpreter = shellPath then
          let (run, d) := Shell.run f.data arguments d
          (.ok run, d)
        else (.error .missing, d)
  | .ok _ => (.error .notAllowed, d)

/-- Whether a search goes on behind a failure. -/
def mayBeElsewhere (failure : SystemFailure) : Bool :=
  failure == .missing || failure == .notFolder || failure == .notAllowed

/-- Runs the first program among some paths that can be run. If there is none, a program that may
not be run counts for more than one that is missing. -/
def startFirst (arguments : List Bytes) :
    (paths : List Path) → (failure : SystemFailure) → Disk → Except SystemFailure ProgramRun × Disk
  | [], failure, d => (.error failure, d)
  | p :: paths, failure, d =>
    match startAt p arguments d with
    | (.error e, d) =>
      if mayBeElsewhere e then startFirst arguments paths (if e = .notAllowed then e else failure) d
      else (.error e, d)
    | (.ok run, d) => (.ok run, d)

/-- Runs a program, which is searched for in some folders if its path has no slash. -/
def start (folders : List Path) (program : Path) (arguments : List Bytes) :
    Action SystemFailure Disk ProgramRun := .ofResult fun d =>
  if program.bytes.contains 0 then (.error .holdsNul, d)
  else if program.bytes.contains Path.slash then startAt program arguments d
  else if nameLimit < program.bytes.length then (.error .tooLong, d)
  else if program.bytes = [] then (.error .missing, d)
  else startFirst arguments (folders.map (·.join program)) .missing d

end Disk
end PhotoImport
