import PhotoImport.Template.Token
import PhotoImport.Text.Quoted

/-!
# Descriptions of tokens

A token as it is shown to someone who checks a template: its kind, with what it holds in quotes.
-/

namespace PhotoImport

/-- The description of a value that may be missing. -/
def describeOption (value : Option String) : String :=
  match value with
  | none => "None"
  | some text => "Some(" ++ text ++ ")"

/-- The description of a date pattern that may be missing. -/
def describePattern (pattern : Option String) : String :=
  describeOption (pattern.map Quoted.encode)

/-- The description of a file property. -/
def FileProperty.description : FileProperty → String
  | name => "Name"
  | stem => "NameNoExt"
  | extension => "Ext"
  | folder => "Path"
  | created pattern => "CreationDate(" ++ describePattern pattern ++ ")"
  | modified pattern => "ModificationDate(" ++ describePattern pattern ++ ")"

/-- The description of a scope. -/
def Scope.description : Scope → String
  | batch => "Global"
  | folder => "Local"

/-- The description of a token. -/
def Token.description : Token → String
  | literal text => "Literal(" ++ Quoted.encode text ++ ")"
  | separator => "PathSeparator"
  | file property => "FileAttribute(" ++ property.description ++ ")"
  | metadata key pattern =>
    "MetadataField \x7b key: " ++ Quoted.encode key ++ ", format: " ++ describePattern pattern ++
      " \x7d"
  | sequence scope width =>
    "Sequence \x7b scope: " ++ scope.description ++ ", width: " ++
      describeOption (width.map fun n => toString n) ++ " \x7d"

end PhotoImport
