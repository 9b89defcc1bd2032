/-!
# Fields

Finite maps from names to values as lists in ascending order of the names.
-/

namespace PhotoImport.Fields

variable {α : Type}

/-- The fields with one more, in its place. It replaces an earlier one of the same name. -/
def insert (name : String) (value : α) : List (String × α) → List (String × α)
  | [] => [(name, value)]
  | (n, v) :: rest =>
    if name < n then (name, value) :: (n, v) :: rest
    else if name = n then (name, value) :: rest
    else (n, v) :: insert name value rest

/-- The value of a name. -/
def get? (name : String) (fields : List (String × α)) : Option α :=
  (fields.find? fun f => f.1 = name).map (·.2)

end PhotoImport.Fields
