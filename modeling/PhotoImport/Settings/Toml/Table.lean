import PhotoImport.Settings.Value

/-!
# TOML tables under construction

A document fills tables from several places, and each place may add only to what it may have made:
a header opens a table once, though it may do so after deeper headers have implied it; a dotted name
adds to tables that dotted names have made, and passes through those that headers have implied.
-/

namespace PhotoImport.Toml

/-- What has made a table. -/
inductive Origin where
  /-- A header of a table below it. -/
  | implied
  /-- Its own header. -/
  | header
  /-- A dotted name. -/
  | dotted
deriving DecidableEq

/-- A node of a document under construction. -/
inductive Node where
  | value (v : Setting)
  | table (origin : Origin) (fields : List (String × Node))
  /-- A list of tables, the last one first. -/
  | rows (tables : List (List (String × Node)))

namespace Node

mutual

/-- The value of a finished node. -/
def toSetting : Node → Setting
  | .value v => v
  | .table _ fields => .table (fieldSettings fields)
  | .rows tables => .list (rowSettings tables).reverse

/-- The values of some fields. -/
def fieldSettings : List (String × Node) → List (String × Setting)
  | [] => []
  | (name, n) :: rest => (name, n.toSetting) :: fieldSettings rest

/-- The values of some tables. -/
def rowSettings : List (List (String × Node)) → List Setting
  | [] => []
  | fields :: rest => .table (fieldSettings fields) :: rowSettings rest

end

/-- The fields of a table, changed in one place. -/
abbrev Fields := List (String × Node)

/-- Puts a value at a name behind dotted steps. -/
def assign (name : String) (v : Setting) : (steps : List String) → Fields → Option Fields
  | [], fields =>
    match Fields.get? name fields with
    | some _ => none
    | none => some (Fields.insert name (.value v) fields)
  | step :: steps, fields =>
    match Fields.get? step fields with
    | none => (assign name v steps []).map fun fs => Fields.insert step (.table .dotted fs) fields
    | some (.table .dotted below) =>
      (assign name v steps below).map fun fs => Fields.insert step (.table .dotted fs) fields
    | some (.table .implied below) =>
      if steps = [] then none
      else (assign name v steps below).map fun fs => Fields.insert step (.table .implied fs) fields
    | some (.rows (below :: tables)) =>
      if steps = [] then none
      else (assign name v steps below).map fun fs => Fields.insert step (.rows (fs :: tables)) fields
    | some _ => none

/-- Changes the fields of the table that a header path leads to; tables on the way are made, and of
a list of tables the last one is entered. -/
def enter (change : Fields → Option Fields) : (path : List String) → Fields → Option Fields
  | [], fields => change fields
  | step :: path, fields =>
    match Fields.get? step fields with
    | none => (enter change path []).map fun fs => Fields.insert step (.table .implied fs) fields
    | some (.table origin below) =>
      (enter change path below).map fun fs => Fields.insert step (.table origin fs) fields
    | some (.rows (below :: tables)) =>
      (enter change path below).map fun fs => Fields.insert step (.rows (fs :: tables)) fields
    | some _ => none

/-- Opens a table by its header. -/
def openTable (name : String) (fields : Fields) : Option Fields :=
  match Fields.get? name fields with
  | none => some (Fields.insert name (.table .header []) fields)
  | some (.table .implied below) => some (Fields.insert name (.table .header below) fields)
  | some _ => none

/-- Opens one more table of a list by its header. -/
def openRow (name : String) (fields : Fields) : Option Fields :=
  match Fields.get? name fields with
  | none => some (Fields.insert name (.rows [[]]) fields)
  | some (.rows tables) => some (Fields.insert name (.rows ([] :: tables)) fields)
  | some _ => none

end Node
end PhotoImport.Toml
