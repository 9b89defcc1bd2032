import PhotoImport.Settings.Environment
import PhotoImport.Settings.Toml.Reader
import PhotoImport.Settings.Yaml.Reader
import PhotoImport.Json.Reader
import PhotoImport.Storage.Source
import PhotoImport.Disk.Resolve

/-!
# Settings

What an import does unless the command line says otherwise. Settings come in layers, each laid over
the one before: the defaults, a file, and the environment. A file is written in YAML or JSON if its
extension says so, and in TOML otherwise. A layer that cannot be read is an error, and so is a value
of the wrong type in what the layers come to; names that are no settings are passed over.

* `Settings.ofSetting?`: the settings in a table;
* `Settings.load`: the settings of all layers.
-/

namespace PhotoImport

/-- What an import does by default. -/
structure Settings where
  /-- The path of the metadata tool, if it need not be searched for. -/
  exiftool : Option Path := none
  template : String := "#file:name#"
  mode : TransferMode := .copy
  recursive : Bool := true
  filters : List String := ["image/.+"]
deriving DecidableEq

/-- Why settings could not be loaded. -/
inductive SettingsError where
  /-- The file that was asked for is missing. -/
  | fileNotFound (path : Path)
  /-- A layer cannot be read, or a value has the wrong type. -/
  | invalid
deriving DecidableEq

namespace SettingsError

/-- The text of an error. -/
def message : SettingsError → String
  | fileNotFound path => "configuration file not found: " ++ path.display
  | invalid => "invalid configuration"

/-- Whether another attempt may succeed. -/
def isRetryable : SettingsError → Bool
  | fileNotFound _ | invalid => false

end SettingsError

namespace Settings

/-! ### Settings in a table -/

/-- The name of a mode. -/
def modeName : TransferMode → String
  | .copy => "copy"
  | .move => "move"

/-- The mode with a name. -/
def modeOfName? (name : String) : Option TransferMode :=
  if name = modeName .copy then some .copy
  else if name = modeName .move then some .move
  else none

/-- A value as a text. -/
def text? : Setting → Option String
  | .text s => some s
  | _ => none

/-- A value as a truth value. -/
def bool? : Setting → Option Bool
  | .bool b => some b
  | _ => none

/-- A value as a list of texts. -/
def texts? : Setting → Option (List String)
  | .list items => items.mapM text?
  | _ => none

/-- A value as a path that may be missing. -/
def path? : Setting → Option (Option Path)
  | .null => some none
  | .text s => some (some (Path.ofText s))
  | _ => none

/-- A value as a mode: its name, or a table in which the name stands for nothing. -/
def mode? : Setting → Option TransferMode
  | .text s => modeOfName? s
  | .table ((name, .null) :: _) => modeOfName? name
  | _ => none

/-- The value that a table has for a name, if `read` can make sense of it. -/
def fieldAs {α : Type} (fields : List (String × Setting)) (name : String) (default : α)
    (read : Setting → Option α) : Option α :=
  match Fields.get? name fields with
  | none => some default
  | some v => read v

/-- The settings in a table. -/
def ofSetting? : Setting → Option Settings
  | .table fields => do
    let base : Settings := {}
    some {
      exiftool := ← fieldAs fields "exiftool" base.exiftool path?
      template := ← fieldAs fields "template" base.template text?
      mode := ← fieldAs fields "mode" base.mode mode?
      recursive := ← fieldAs fields "recursive" base.recursive bool?
      filters := ← fieldAs fields "filters" base.filters texts? }
  | _ => none

/-- Settings as a table. -/
def toSetting (s : Settings) : Setting :=
  .table [("exiftool", match s.exiftool with
      | none => .null
      | some p => .text p.display),
    ("filters", .list (s.filters.map .text)), ("mode", .text (modeName s.mode)),
    ("recursive", .bool s.recursive), ("template", .text s.template)]

/-! ### Files -/

/-- The formats that a file of settings may have. -/
inductive Format where
  | toml
  | yaml
  | json
deriving DecidableEq

/-- The format of the file at a path. -/
def formatOf (p : Path) : Format :=
  match p.extension? with
  | none => .toml
  | some e =>
    if e = Utf8.encode "yaml" ∨ e = Utf8.encode "yml" then .yaml
    else if e = Utf8.encode "json" then .json
    else .toml

/-- A JSON text as a layer, which has to be an object. -/
def layerOfJson? (text : String) : Option Setting :=
  match Json.Value.read? text with
  | some (.object members) => some (.ofJson (.object members))
  | _ => none

/-- The layer in a file. -/
def layerOf? (format : Format) (data : Bytes) : Option Setting :=
  (Utf8.decode? data).bind fun text =>
    match format with
    | .toml => Toml.read? text
    | .yaml => Yaml.read? text
    | .json => layerOfJson? text

/-- The layer of a path. A path that does not lead to a file is an empty layer. -/
def fileLayer? (d : Disk) (p : Path) : Option Setting :=
  match d.lookUp p with
  | .ok (.file f) => layerOf? (formatOf p) f.data
  | _ => some (.table [])

/-! ### Layers -/

/-- The name of the default file. -/
def fileName : String := "config.toml"

/-- Where the default file is, for a user whose configuration files are in a folder. -/
def defaultPath (configFolder : Path) : Path :=
  (configFolder.join (Path.ofText "shootsort")).join (Path.ofText fileName)

/-- The settings of a file layer and the environment over the defaults. -/
def ofLayers? (file environment : Setting) : Option Settings :=
  ofSetting? ((({} : Settings).toSetting.overlay file).overlay environment)

/-- Loads the settings from a file, or from the default file if none is asked for. Only a file that
is asked for has to be there. -/
def load (d : Disk) (configFolder : Path) (file : Option Path) (environment : List (String × String)) :
    Except SettingsError Settings :=
  let path := file.getD (defaultPath configFolder)
  if file.isSome ∧ d.isPresent path = false then .error (.fileNotFound path)
  else
    match fileLayer? d path with
    | none => .error .invalid
    | some layer =>
      match ofLayers? layer (Environment.settings environment) with
      | none => .error .invalid
      | some s => .ok s

end Settings
end PhotoImport
