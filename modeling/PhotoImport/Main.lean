import PhotoImport.CommandLine.Basic

/-!
# The program

Runs its arguments on a disk that holds the files named on standard input: one path a line, with the
contents of the file behind a tab if there are any. Output and exit code are those of the command.
-/

namespace PhotoImport.Program

/-- The variables that the environment may set. -/
def variableNames : List String :=
  ["SHOOTSORT_CONFIG", "SHOOTSORT_EXIFTOOL", "SHOOTSORT_FILTERS", "SHOOTSORT_MODE",
    "SHOOTSORT_RECURSIVE", "SHOOTSORT_TEMPLATE"]

/-- The disk with the file that a line names. -/
def addLine (d : Disk) (line : Bytes) : Disk :=
  let path := line.takeWhile (· != 9)
  if path.isEmpty then d
  else d.withEntry (d.working ++ Disk.names ⟨path⟩) (.file { data := line.drop (path.length + 1) })

/-- The disk with the files that a text names. -/
def diskOf (text : String) : Disk :=
  (Pieces.split 10 (Utf8.encode text)).foldl addLine { working := [] }

/-- Whether some arguments ask for an import, which needs files. -/
def needsFiles (arguments : List Bytes) : Bool :=
  match Invocation.read none arguments with
  | .ok { request := .importFiles _, .. } => true
  | _ => false

/-- The rest of what can be read. -/
partial def readAll (input : IO.FS.Stream) (seen : String) : IO String := do
  let line ← input.getLine
  if line.isEmpty then return seen else readAll input (seen ++ line)

end PhotoImport.Program

open PhotoImport in
/-- Runs a command. -/
def main (arguments : List String) : IO UInt32 := do
  let arguments := arguments.map Utf8.encode
  let text ← if Program.needsFiles arguments then Program.readAll (← IO.getStdin) "" else pure ""
  let found ← Program.variableNames.mapM fun name => do
    return (← IO.getEnv name).map fun value => (name, value)
  let surroundings : Surroundings :=
    { configFolder := Path.ofText "/config", programFolders := [], environment := found.filterMap id }
  let (report, _) := CommandLine.run surroundings arguments (Program.diskOf text)
  IO.print report.output
  return UInt32.ofNat report.code
