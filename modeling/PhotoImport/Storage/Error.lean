import PhotoImport.Path.Basic

/-!
# Storage errors

What can go wrong with files. An operating system reports a failure as a kind and a text; of these,
the kinds that a caller can act on become causes of their own, which name the path.
-/

namespace PhotoImport

/-- The kinds of system failures that are told apart. -/
inductive FailureKind where
  | notFound
  | permissionDenied
  | alreadyExists
  | other
deriving DecidableEq

/-- A failure that the operating system reports. -/
structure SystemFailure where
  kind : FailureKind
  text : String
deriving DecidableEq

/-- Why an operation on files failed. -/
inductive StorageError where
  | notFound (path : Path)
  | permissionDenied (path : Path)
  | alreadyExists (path : Path)
  | invalidPath (path : Path)
  | invalidFilter (pattern : String)
  | system (text : String)
deriving DecidableEq

namespace StorageError

/-- The text of an error. -/
def message : StorageError → String
  | notFound path => "file not found: " ++ path.display
  | permissionDenied path => "permission denied: " ++ path.display
  | alreadyExists path => "file already exists: " ++ path.display
  | invalidPath path => "invalid path: " ++ path.display
  | invalidFilter pattern => "invalid MIME filter: " ++ pattern
  | system text => "I/O error: " ++ text

/-- Whether another attempt may succeed. -/
def isRetryable : StorageError → Bool
  | system _ => true
  | _ => false

/-- The cause behind a system failure that concerns a path. -/
def ofFailure (failure : SystemFailure) (path : Path) : StorageError :=
  match failure.kind with
  | .notFound => notFound path
  | .permissionDenied => permissionDenied path
  | .alreadyExists => alreadyExists path
  | .other => system failure.text

end StorageError
end PhotoImport
