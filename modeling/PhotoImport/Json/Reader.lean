import PhotoImport.Json.Token
import PhotoImport.Order.Fields

/-!
# Reading JSON

Tokens are put together on a stack of the lists and objects that are open. At most `depthLimit` of
them may be open at a time. Of two members with one key the later counts.
-/

namespace PhotoImport.Json

/-- How many lists and objects may be open at a time. -/
def depthLimit : Nat := 127

/-- A list or an object that is open. The items of a list are held in reverse. -/
inductive Frame where
  | list (items : List (Value Number))
  /-- An object that waits for the value of a key. -/
  | member (members : List (String × Value Number)) (key : String)

/-- What may come next. -/
inductive ReadState where
  /-- A value; or the end of the list, if none has been read yet. -/
  | value (frames : List Frame) (mayEnd : Bool)
  /-- A key; or the end of the object, if none has been read yet. -/
  | key (frames : List Frame) (members : List (String × Value Number)) (mayEnd : Bool)
  /-- The colon behind a key. -/
  | colon (frames : List Frame) (members : List (String × Value Number)) (key : String)
  /-- A comma or the end of the list. -/
  | listNext (frames : List Frame) (items : List (Value Number))
  /-- A comma or the end of the object. -/
  | objectNext (frames : List Frame) (members : List (String × Value Number))
  /-- Nothing. -/
  | done (v : Value Number)

/-- The state behind a value. -/
def afterValue (frames : List Frame) (v : Value Number) : ReadState :=
  match frames with
  | [] => .done v
  | .list items :: frames => .listNext frames (v :: items)
  | .member members key :: frames => .objectNext frames (Fields.insert key v members)

/-- What one token does. -/
def readStep (s : ReadState) (t : Token) : Option ReadState :=
  match s, t with
  | .value frames _, .scalar v => some (afterValue frames v)
  | .value frames _, .text s => some (afterValue frames (.text s))
  | .value frames _, .openList =>
    if frames.length < depthLimit then some (.value (.list [] :: frames) true) else none
  | .value frames _, .openObject =>
    if frames.length < depthLimit then some (.key frames [] true) else none
  | .value (.list [] :: frames) true, .closeList => some (afterValue frames (.list []))
  | .key frames members _, .text s => some (.colon frames members s)
  | .key frames members true, .closeObject => some (afterValue frames (.object members))
  | .colon frames members key, .colon => some (.value (.member members key :: frames) false)
  | .listNext frames items, .comma => some (.value (.list items :: frames) false)
  | .listNext frames items, .closeList => some (afterValue frames (.list items.reverse))
  | .objectNext frames members, .comma => some (.key frames members false)
  | .objectNext frames members, .closeObject => some (afterValue frames (.object members))
  | _, _ => none

/-- The value spelled by a text. -/
def Value.read? (text : String) : Option (Value Number) :=
  match scan .between text.toList with
  | none => none
  | some tokens =>
    match tokens.foldlM readStep (.value [] false) with
    | some (.done v) => some v
    | _ => none

end PhotoImport.Json
