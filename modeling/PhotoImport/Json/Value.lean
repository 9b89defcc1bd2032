import PhotoImport.Text.Utf8

/-!
# JSON values

A JSON value is a tree of lists and objects over scalars. How documents are read and how numbers and
objects are printed is not said here: a `Json.Library` knows it. All that is relied on is that an
object which is read is a map (`Json.Library.ReadsMaps`).
-/

namespace PhotoImport.Json

/-- **A JSON value**, with numbers of some kind. -/
inductive Value (ν : Type) where
  | null
  | bool (b : Bool)
  | number (n : ν)
  | text (s : String)
  | list (items : List (Value ν))
  | object (members : List (String × Value ν))

/-- **What is known of JSON.** -/
class Library where
  /-- The numbers that a document may hold. -/
  Number : Type
  /-- The value that a document spells, if it is one. -/
  read? : (document : Bytes) → Option (Value Number)
  /-- The text of a number. -/
  numberText : Number → String
  /-- The text of an object with some members. -/
  objectText : List (String × Value Number) → String

namespace Library

/-- The values that a library reads. -/
abbrev Value (json : Library) : Type := Json.Value json.Number

/-- The members of an object that a library reads. -/
abbrev Members (json : Library) : Type := List (String × json.Value)

/-- **Objects are read as maps**: none of a list of objects has a key twice. -/
def ReadsMaps (json : Library) : Prop :=
  ∀ (document : Bytes) (objects : List json.Members),
    json.read? document = some (.list (objects.map .object)) →
      ∀ members ∈ objects, (members.map Prod.fst).Nodup

end Library
end PhotoImport.Json
