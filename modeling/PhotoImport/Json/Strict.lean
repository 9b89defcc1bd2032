import PhotoImport.Json.Reader

/-!
# Strict JSON

The library that the program runs with. It reads documents of UTF-8 that keep to the grammar, and
prints compact texts.
-/

namespace PhotoImport.Json

/-- Strict JSON, with numbers of 64 bits. -/
instance strict : Library where
  Number := Number
  read? document := (Utf8.decode? document).bind Value.read?
  numberText := Number.text
  objectText members := String.ofList (Value.object members).compact

end PhotoImport.Json
