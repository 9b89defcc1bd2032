/-!
# Sorted lists without repetition

Finite sets as lists in ascending order. Of two elements that compare as equal the one that was
there first stays.
-/

namespace PhotoImport.SortedList

variable {α : Type}

/-- The list with one more element, in its place. -/
def insert (cmp : α → α → Ordering) (x : α) : List α → List α
  | [] => [x]
  | y :: ys =>
    match cmp x y with
    | .lt => x :: y :: ys
    | .eq => y :: ys
    | .gt => y :: insert cmp x ys

/-- The elements of a list in ascending order, each once. -/
def ofList (cmp : α → α → Ordering) (xs : List α) : List α :=
  xs.foldl (fun sorted x => insert cmp x sorted) []

end PhotoImport.SortedList
