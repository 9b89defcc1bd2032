import PhotoImport.Path.Basic
import PhotoImport.Program.Run

/-!
# Metadata errors

Why a metadata lookup failed, and what is said about it.
-/

namespace PhotoImport

/-- Why a metadata lookup failed. -/
inductive MetadataError where
  /-- No tool has been set up. -/
  | notConfigured
  /-- The tool is not where it should be. -/
  | toolNotFound (executable : Path)
  /-- The file to ask about is not there. -/
  | sourceMissing (path : Path)
  /-- A key would be an instruction to the tool. -/
  | invalidTag (key : String)
  /-- The output of the tool means nothing. -/
  | invalidOutput (detail : String)
  /-- The output of the tool means nothing, and the tool reports a failure. -/
  | toolFailed (status : ExitStatus) (complaint : String)
  /-- The operating system reports a failure. -/
  | system
deriving DecidableEq

namespace MetadataError

/-- What an output that is no document is called. -/
def notDocument : String := "not a JSON array of objects"

/-- The text of an error. -/
def message : MetadataError → String
  | notConfigured => "exiftool is not configured"
  | toolNotFound executable => "exiftool not found at " ++ executable.display
  | sourceMissing path => "file does not exist: " ++ path.display
  | invalidTag key => "invalid metadata tag: " ++ key
  | invalidOutput detail => "unexpected exiftool output: " ++ detail
  | toolFailed status complaint =>
    "unexpected exiftool output: exiftool exited with " ++ status.description ++ ": " ++ complaint
  | system => "Io"

/-- The error behind an error. -/
def cause? : MetadataError → Option MetadataError
  | toolFailed _ _ => some (invalidOutput notDocument)
  | _ => none

/-- Whether another attempt may succeed. -/
def isRetryable : MetadataError → Bool
  | system => true
  | _ => false

end MetadataError
end PhotoImport
