import PhotoImport.CommandLine.Arguments
import PhotoImport.Template.Describe
import PhotoImport.Settings.Basic
import PhotoImport.Metadata.ExifTool
import PhotoImport.Disk.Walk
import PhotoImport.Import.Basic
import PhotoImport.Json.Strict
import PhotoImport.Media.Known

/-!
# The command line

What a line of arguments does on a disk: the exit code and the output that it ends with. Settings
are loaded for every request, so that settings that make no sense are told whatever is asked for;
what the arguments say goes before what the settings say.

Nothing is written to the output unless the request has been carried out.
-/

namespace PhotoImport

/-- What a command ends with. -/
structure Report where
  code : Nat
  output : String := ""
deriving DecidableEq

/-- Where a command runs. -/
structure Surroundings where
  /-- The folder of the user's configuration files. -/
  configFolder : Path
  /-- The folders that programs are searched for in. -/
  programFolders : List Path
  /-- The variables of the environment, in ascending order of their names. -/
  environment : List (String × String)

namespace Surroundings

/-- The name of the variable for the file of settings. -/
def configVariable : String := "SHOOTSORT_CONFIG"

/-- The file of settings that the environment names. -/
def config? (s : Surroundings) : Option String := Fields.get? configVariable s.environment

end Surroundings

namespace CommandLine

/-! ### Reports -/

/-- Lines with a line end behind each. -/
def linesText (lines : List String) : String := String.join (lines.map (· ++ "\n"))

/-- The report of a command that has been carried out. -/
def success (lines : List String) : Report := ⟨0, linesText lines⟩

/-- The line that tells the version. -/
def versionLine : String := "shootsort 0.1.0-beta"

/-- The report of arguments that make no request. -/
def dismissal : Dismissal → Report
  | .help => ⟨0, ""⟩
  | .version => success [versionLine]
  | .misuse => ⟨2, ""⟩

/-- The report of an import that has failed. -/
def failure : ImportError → Report
  | .template _ => ⟨2, ""⟩
  | .metadataNotConfigured => ⟨3, ""⟩
  | _ => ⟨1, ""⟩

/-! ### Showing a template -/

/-- The lines that tell what a template means. -/
def templateLines (t : Template) : List String :=
  [t.spelling] ++ t.tokens.map (fun token => "  " ++ token.description) ++
    (if t.keys.isEmpty then [] else ["metadata: " ++ ", ".intercalate t.keys])

/-- Shows what a template means. -/
def showTemplate (template : String) : Report :=
  match Template.compile template with
  | .error _ => ⟨2, ""⟩
  | .ok t => success (templateLines t)

/-! ### Importing -/

/-- The options of an import: those of the request where it has any, and those of the settings
otherwise. -/
def options (settings : Settings) (r : ImportRequest) : Except ImportError ImportOptions := do
  let filters := if r.filters.isEmpty then settings.filters else r.filters
  let o ← ImportOptions.ofTexts (r.template.getD settings.template) (some filters)
  pure { o with
    mode := if r.move then .move else settings.mode
    recursive := settings.recursive && !r.noRecursive
    dryRun := r.dryRun }

/-- The metadata tool: the one that is named, or else one that is found among the programs. -/
def tool? (s : Surroundings) (settings : Settings) (r : ImportRequest) (d : Disk) : Option Path :=
  (r.exiftool.or settings.exiftool).or (d.findProgram? s.programFolders ExifTool.binaryName)

/-- The lookup by a tool, or none. -/
def lookup (s : Surroundings) : Option Path → Lookup Disk
  | none => noLookup
  | some executable => ExifTool.lookup (Disk.host s.programFolders) executable

/-- The lines that tell what an import has done, or would do. -/
def importLines (dryRun : Bool) (summary : ImportSummary) : List String :=
  if dryRun then
    summary.planned.map (fun p => p.source.display ++ " -> " ++ p.destination.display) ++
      [toString summary.planned.length ++ " files would be imported"]
  else [toString summary.placed ++ " files imported"]

/-- Imports a folder. -/
def importFolder (s : Surroundings) (settings : Settings) (r : ImportRequest) (d : Disk) :
    Report × Disk :=
  match options settings r with
  | .error e => (failure e, d)
  | .ok o =>
    let lookup := lookup s (tool? s settings r d)
    match (importFiles lookup o r.source r.destination).result d with
    | (.error e, d) => (failure e, d)
    | (.ok summary, d) => (success (importLines o.dryRun summary), d)

/-! ### Running -/

/-- Runs a line of arguments on a disk. -/
def run (s : Surroundings) (arguments : List Bytes) (d : Disk) : Report × Disk :=
  match Invocation.read s.config? arguments with
  | .error stop => (dismissal stop, d)
  | .ok invocation =>
    match Settings.load d s.configFolder invocation.config s.environment with
    | .error _ => (⟨1, ""⟩, d)
    | .ok settings =>
      match invocation.request with
      | .showTemplate template => (showTemplate template, d)
      | .importFiles r => importFolder s settings r d

end CommandLine
end PhotoImport
