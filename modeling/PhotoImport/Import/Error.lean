import PhotoImport.Template.Compile
import PhotoImport.Storage.Error
import PhotoImport.Metadata.Error

/-!
# Import errors

An import fails at a stage, and behind the stage stands the error that stopped it.
-/

namespace PhotoImport

/-- The stage at which an import failed, and why. -/
inductive ImportError where
  | template (cause : TemplateError)
  | filter (cause : StorageError)
  | enumerate (cause : StorageError)
  /-- A lookup failed; it may have died without a cause. -/
  | metadata (cause : Option MetadataError)
  | metadataNotConfigured
  /-- A folder could not be made or a file not transferred. What was placed before stays. -/
  | transfer (cause : StorageError)
deriving DecidableEq

namespace ImportError

/-- The text of an error. -/
def message : ImportError → String
  | template _ => "invalid destination template"
  | filter _ => "invalid file filter"
  | enumerate _ => "could not enumerate source files"
  | metadata _ => "could not read file metadata"
  | metadataNotConfigured => "metadata tool is not configured"
  | transfer _ => "could not place file"

/-- Whether another attempt may succeed. -/
def isRetryable : ImportError → Bool
  | enumerate _ | metadata _ | transfer _ => true
  | template _ | filter _ | metadataNotConfigured => false

end ImportError
end PhotoImport
