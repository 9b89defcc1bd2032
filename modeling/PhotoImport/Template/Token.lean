import PhotoImport.Decimal.Padded

/-!
# Template tokens

A destination template is a list of tokens: text, folder boundaries, and markers that stand for
something known about a file. Every token has a canonical spelling, and the spelling of a template is
that of its tokens one after another.
-/

namespace PhotoImport

/-- Which of the two counters a sequence number is taken from. -/
inductive Scope where
  /-- One counter for the whole batch. -/
  | batch
  /-- One counter for each destination folder. -/
  | folder
deriving DecidableEq, Inhabited

/-- What a marker may say about the file itself. A date may come with a pattern. -/
inductive FileProperty where
  /-- The name with its extension. -/
  | name
  /-- The name without its extension. -/
  | stem
  /-- The extension without its dot. -/
  | extension
  /-- The folder below the source root, with a slash behind it. -/
  | folder
  | created (pattern : Option String)
  | modified (pattern : Option String)
deriving DecidableEq, Inhabited

/-- An element of a template. -/
inductive Token where
  /-- Text to copy. -/
  | literal (text : String)
  /-- A folder boundary. -/
  | separator
  | file (property : FileProperty)
  /-- A metadata value, which may be a date to be written in a pattern. -/
  | metadata (key : String) (pattern : Option String)
  /-- A sequence number, filled up with zeros to a width. -/
  | sequence (scope : Scope) (width : Option Nat)
deriving DecidableEq, Inhabited

/-- A compiled template. -/
structure Template where
  tokens : List Token
deriving DecidableEq, Inhabited

/-- The widest number that a template may ask for. -/
def maxSequenceWidth : Nat := 65535

/-- The pattern of a file date that comes with none. -/
def defaultDatePattern : String := "yyyyMMdd"

/-! ### Spelling -/

/-- A head, and behind a colon the detail that comes with it. -/
def withDetail (head : String) : Option String → String
  | none => head
  | some detail => head ++ ":" ++ detail

/-- The word for a counter. -/
def Scope.spelling : Scope → String
  | .batch => "global"
  | .folder => "local"

/-- The body of the marker for a property. -/
def FileProperty.spelling : FileProperty → String
  | .name => "name"
  | .stem => "namenoext"
  | .extension => "ext"
  | .folder => "path"
  | .created pattern => withDetail "creationdate" pattern
  | .modified pattern => withDetail "modificationdate" pattern

/-- The canonical spelling of a token. -/
def Token.spelling : Token → String
  | .literal text => text
  | .separator => "/"
  | .file property => "#file:" ++ property.spelling ++ "#"
  | .metadata key pattern => "#exif:" ++ withDetail key pattern ++ "#"
  | .sequence scope width =>
    let digits := width.map fun w => String.ofList (Decimal.digits w)
    "#sequence:" ++ withDetail scope.spelling digits ++ "#"

/-- The canonical spelling of a template. -/
def Template.spelling (t : Template) : String := String.join (t.tokens.map Token.spelling)

end PhotoImport
