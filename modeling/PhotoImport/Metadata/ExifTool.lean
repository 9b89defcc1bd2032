import PhotoImport.Metadata.Lookup
import PhotoImport.Json.Value
import PhotoImport.Program.Start

/-!
# Lookups by exiftool

Metadata is read by running the tool once for a file. The keys are put into its arguments, and a
key that is not a plain tag name could be an instruction to change the file; so one such key keeps
the tool from being started at all. The tool answers with a JSON document, which is flattened to a
text for each key. Its exit status counts only if there is no document: a tool that misses a tag
may report a failure and still give the others.

* `ExifTool.arguments`: what the tool is started with;
* `ExifTool.values?`: the values in a document;
* `ExifTool.lookup`: the lookup, for any host that can look for files, run programs and read documents.
-/

namespace PhotoImport
namespace ExifTool

/-- The name that the tool is searched for by. -/
def binaryName : String := "exiftool"

/-! ### Asking -/

/-- Whether a character may stand at the front of a tag name. -/
def isTagStart (c : Char) : Bool := c.isAlphanum || c == '_'

/-- Whether a key is a plain tag name. -/
def isTag (key : String) : Bool :=
  match key.toList with
  | [] => false
  | c :: rest => isTagStart c && rest.all fun d => isTagStart d || d == '-'

/-- The arguments that ask for the values of some keys of a file. -/
def arguments (keys : List String) (p : Path) : List Bytes :=
  Utf8.encode "-json" :: keys.map (fun key => Utf8.encode ("-" ++ key)) ++ [p.bytes]

/-! ### Answers -/

/-- What stands between the items of a list. -/
def listSeparator : List Char := [',', ' ']

section Answers

variable (json : Json.Library)

mutual

/-- The text of a value; a null has none. -/
def textOf? : json.Value → Option (List Char)
  | .null => none
  | .text s => some s.toList
  | .bool b => some (toString b).toList
  | .number n => some (json.numberText n).toList
  | .list items => some ((textsOf items).intersperse listSeparator).flatten
  | .object members => some (json.objectText members).toList

/-- The texts of some values. -/
def textsOf : List json.Value → List (List Char)
  | [] => []
  | v :: rest => (textOf? v).toList ++ textsOf rest

end

/-- The members of an object. -/
def members? {ν : Type} : Json.Value ν → Option (List (String × Json.Value ν))
  | .object members => some members
  | _ => none

/-- The key under which the tool repeats the path of the file. -/
def sourceKey : String := "SourceFile"

/-- The values in a document: those of the first object in a list of objects. -/
def documentValues? : json.Value → Option Values
  | .list items => do
    let objects ← items.mapM members?
    let first := objects.head?.getD []
    some (first.filterMap fun (key, v) =>
      if key = sourceKey then none else (textOf? json v).map fun text => (key, String.ofList text))
  | _ => none

/-- The values in the output of the tool, if it is a document. -/
def values? (output : Bytes) : Option Values := (json.read? output).bind (documentValues? json)

/-- The answer that a run of the tool gives. -/
def answer (run : ProgramRun) : Except LookupFailure Values :=
  match values? json run.output with
  | some values => .ok values
  | none =>
    if run.status.isSuccess then .error (.refused (.invalidOutput MetadataError.notDocument))
    else .error (.refused (.toolFailed run.status (trimBlank (Utf8.decodeLossy run.complaint))))

end Answers

/-! ### The lookup -/

/-- What a lookup needs of the place where it runs. -/
structure Host (σ : Type) where
  /-- Whether a path leads anywhere. -/
  exists? : Path → Action SystemFailure σ Bool
  /-- Runs a program with some arguments. -/
  run : (program : Path) → (arguments : List Bytes) → Action SystemFailure σ ProgramRun
  /-- How the documents of programs are read. -/
  json : Json.Library

/-- What a failure to start the tool means. -/
def startFailure (executable : Path) (failure : SystemFailure) : LookupFailure :=
  if failure.kind = .notFound then .refused (.toolNotFound executable) else .refused .system

/-- The lookup that runs the tool at a path. -/
def lookup {σ : Type} (host : Host σ) (executable : Path) : Lookup σ := fun p keys => do
  let present ← (host.exists? p).mapError fun _ => .refused .system
  if present = false then throw (.refused (.sourceMissing p))
  else if keys = [] then pure []
  else
    match keys.find? fun key => !isTag key with
    | some key => throw (.refused (.invalidTag key))
    | none =>
      let run ← (host.run executable (arguments keys p)).mapError (startFailure executable)
      MonadExcept.ofExcept (answer host.json run)

end ExifTool

/-- A disk as a host. Programs are searched for in the given folders. -/
def Disk.host [json : Json.Library] (folders : List Path) : ExifTool.Host Disk where
  exists? p := .ofRead fun d => d.exists? p
  run := Disk.start folders
  json := json

end PhotoImport
