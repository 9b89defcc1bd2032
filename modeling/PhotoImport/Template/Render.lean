import PhotoImport.Template.Token
import PhotoImport.Order.SortedList
import PhotoImport.Path.Basic
import PhotoImport.Calendar.Pattern
import PhotoImport.Calendar.Stamp

/-!
# Rendering a template

What a template says about one file. Whatever is not known is left out: a date or a metadata value
that is absent, and a sequence number that has not been given, render as nothing.
-/

namespace PhotoImport

/-- Metadata values by key. -/
abbrev Values := List (String × String)

/-- What may be said about a file. -/
structure Subject where
  /-- The path below the source root. -/
  path : Path
  created : Option DateTime := none
  modified : Option DateTime := none
  values : Values := []
  /-- The place in the whole batch. -/
  batchNumber : Option Nat := none
  /-- The place in the destination folder. -/
  folderNumber : Option Nat := none

namespace Subject

/-- The number that a counter gives the file. -/
def number (s : Subject) : Scope → Option Nat
  | .batch => s.batchNumber
  | .folder => s.folderNumber

/-- A file date in a pattern. -/
def date (when : Option DateTime) (pattern : Option String) : String :=
  match when with
  | none => ""
  | some t => DatePattern.format t (pattern.getD defaultDatePattern)

/-- The folder of a file with a slash behind it, or nothing at the root. -/
def folderText (p : Path) : String :=
  match p.parent? with
  | none => ""
  | some folder => if folder = Path.empty then "" else folder.display ++ "/"

/-- What a property of the file reads as. -/
def property (s : Subject) : FileProperty → String
  | .name => Utf8.decodeLossy (s.path.fileName?.getD [])
  | .stem => Utf8.decodeLossy (s.path.stem?.getD [])
  | .extension => Utf8.decodeLossy (s.path.extension?.getD [])
  | .folder => folderText s.path
  | .created pattern => date s.created pattern
  | .modified pattern => date s.modified pattern

/-- A metadata value, rewritten if a pattern is given and the value is a time stamp. -/
def metadata (s : Subject) (key : String) (pattern : Option String) : String :=
  match s.values.lookup key with
  | none => ""
  | some value =>
    match pattern, Stamp.read? value with
    | some pattern, some t => DatePattern.format t pattern
    | _, _ => value

end Subject

/-- What a token reads as for a file. -/
def Token.render (s : Subject) : Token → String
  | .literal text => text
  | .separator => "/"
  | .file property => s.property property
  | .metadata key pattern => s.metadata key pattern
  | .sequence scope width =>
    match s.number scope with
    | none => ""
    | some n => String.ofList (Decimal.padded n (width.getD 1))

namespace Template

/-- What a template reads as for a file. -/
def render (t : Template) (s : Subject) : String :=
  String.join (t.tokens.map (Token.render s))

/-- The metadata key of a token. -/
def key? : Token → Option String
  | .metadata key _ => some key
  | _ => none

/-- The metadata keys that a template names, in ascending order. -/
def keys (t : Template) : List String := SortedList.ofList compare (t.tokens.filterMap key?)

/-- Whether the template has a number that depends on the destination folder. -/
def needsFolderNumber (t : Template) : Bool :=
  t.tokens.any fun
    | .sequence .folder _ => true
    | _ => false

end Template
end PhotoImport
