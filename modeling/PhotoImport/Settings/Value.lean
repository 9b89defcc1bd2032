import PhotoImport.Json.Compact
import PhotoImport.Order.Fields

/-!
# Settings as values

What a layer of settings says, whatever format it was written in. No setting is a number or a date,
so these are not told apart. The fields of a table stand in ascending order of their names.
-/

namespace PhotoImport

/-- A value in a layer of settings. -/
inductive Setting where
  | null
  | bool (b : Bool)
  /-- A number or a date. -/
  | number
  | text (s : String)
  | list (items : List Setting)
  | table (fields : List (String × Setting))

namespace Setting

mutual

/-- A value with another laid over it. Tables are laid over each other field by field; of all other
values the upper one hides the lower. -/
def overlay (low : Setting) : (high : Setting) → Setting
  | .table fields =>
    match low with
    | .table below => .table (overlayFields below fields)
    | _ => .table fields
  | .null => .null
  | .bool b => .bool b
  | .number => .number
  | .text s => .text s
  | .list items => .list items

/-- Fields with others laid over them. -/
def overlayFields (low : List (String × Setting)) : List (String × Setting) → List (String × Setting)
  | [] => low
  | (name, v) :: rest =>
    let v := match Fields.get? name low with
      | none => v
      | some below => below.overlay v
    overlayFields (Fields.insert name v low) rest

end

mutual

/-- The value of a JSON value. -/
def ofJson : Json.Value Json.Number → Setting
  | .null => .null
  | .bool b => .bool b
  | .number _ => .number
  | .text s => .text s
  | .list items => .list (ofJsonItems items)
  | .object members => .table (ofJsonMembers members)

/-- The values of some JSON values. -/
def ofJsonItems : List (Json.Value Json.Number) → List Setting
  | [] => []
  | v :: rest => ofJson v :: ofJsonItems rest

/-- The fields for the members of a JSON object. -/
def ofJsonMembers : List (String × Json.Value Json.Number) → List (String × Setting)
  | [] => []
  | (key, v) :: rest => (key, ofJson v) :: ofJsonMembers rest

end

end Setting
end PhotoImport
