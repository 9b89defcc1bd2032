import PhotoImport.Settings.Toml.Scalar
import PhotoImport.Settings.Toml.Table

/-!
# Reading TOML

A document is a sequence of lines: blank ones, headers of tables, and names with values. Lists may
go over several lines, inline tables may not.
-/

namespace PhotoImport.Toml

/-- The text behind a comment, if one stands at its front. -/
def skipComment (text : List Char) : List Char :=
  if text.head? = some '#' then text.dropWhile isPlain else text

/-- The text behind the end of a line, if nothing but a comment stands in front of it. -/
def endLine? (text : List Char) : Option (List Char) :=
  match skipComment (skipBlanks text) with
  | [] => some []
  | rest => newline? rest

/-- The text behind blanks, line ends and comments. -/
def skipGaps (inComment : Bool) : List Char → List Char
  | [] => []
  | c :: rest =>
    if inComment && isPlain c then skipGaps true rest
    else if c = ' ' ∨ c = '\t' ∨ c = '\n' then skipGaps false rest
    else if c = '\r' ∧ rest.head? = some '\n' then skipGaps false rest
    else if c = '#' then skipGaps true rest
    else c :: rest

/-! ### Names -/

/-- Whether a character may belong to a bare name. -/
def isNameChar (c : Char) : Bool := c.isAlphanum || c == '_' || c == '-'

/-- The name that a text begins with. -/
def simpleName (text : List Char) : Read String :=
  match text with
  | '"' :: rest => basicFrom [] rest
  | '\'' :: rest => literalFrom rest
  | _ =>
    let name := text.takeWhile isNameChar
    if name.isEmpty then none else some (String.ofList name, text.drop name.length)

/-- The names between dots that a text begins with: the last one, and those before it. -/
def dottedName : (fuel : Nat) → List Char → Option ((List String × String) × List Char)
  | 0, _ => none
  | fuel + 1, text => do
    let (name, rest) ← simpleName (skipBlanks text)
    match skipBlanks rest with
    | '.' :: rest => do
      let ((steps, last), rest) ← dottedName fuel rest
      some ((name :: steps, last), rest)
    | rest => some (([], name), rest)

/-! ### Values -/

/-- How deep lists and inline tables may be nested. -/
def depthLimit : Nat := 79

mutual

/-- The value that a text begins with, at a depth. -/
def value : (fuel : Nat) → (depth : Nat) → List Char → Read Setting
  | 0, _, _ => none
  | fuel + 1, depth, text =>
    match text with
    | '"' :: _ | '\'' :: _ => (quoted text).map fun (s, rest) => (.text s, rest)
    | '[' :: rest =>
      if depth < depthLimit then
        (items fuel (depth + 1) rest).map fun (vs, rest) => (.list vs, rest)
      else none
    | '\x7b' :: rest =>
      if depth < depthLimit then
        match skipBlanks rest with
        | '\x7d' :: rest => some (.table [], rest)
        | rest => (fields fuel (depth + 1) [] rest).map fun (fs, rest) =>
          (.table (Node.fieldSettings fs), rest)
      else none
    | _ => bareWord text

/-- The items of a list up to its end. -/
def items : (fuel : Nat) → (depth : Nat) → List Char → Option (List Setting × List Char)
  | 0, _, _ => none
  | fuel + 1, depth, text =>
    match skipGaps false text with
    | ']' :: rest => some ([], rest)
    | text => do
      let (v, rest) ← value fuel depth text
      match skipGaps false rest with
      | ',' :: rest => (items fuel depth rest).map fun (vs, rest) => (v :: vs, rest)
      | ']' :: rest => some ([v], rest)
      | _ => none

/-- The fields of an inline table up to its end, behind some that are known. -/
def fields : (fuel : Nat) → (depth : Nat) → Node.Fields → List Char →
    Option (Node.Fields × List Char)
  | 0, _, _, _ => none
  | fuel + 1, depth, known, text => do
    let ((steps, name), rest) ← dottedName fuel text
    match rest with
    | '=' :: rest =>
      let (v, rest) ← value fuel depth (skipBlanks rest)
      let known ← Node.assign name v steps known
      match skipBlanks rest with
      | ',' :: rest => fields fuel depth known rest
      | '\x7d' :: rest => some (known, rest)
      | _ => none
    | _ => none

end

/-! ### Documents -/

/-- Reads the lines of a document. `path` is the path of the last header, and `known` is what has
been read. -/
def document : (fuel : Nat) → (path : List String) → (known : Node.Fields) → List Char →
    Option Node.Fields
  | 0, _, _, _ => none
  | fuel + 1, path, known, text =>
    match skipBlanks text with
    | [] => some known
    | '[' :: '[' :: rest => do
      let ((steps, name), rest) ← dottedName fuel rest
      match rest with
      | ']' :: ']' :: rest =>
        let known ← Node.enter (Node.openRow name) steps known
        document fuel (steps ++ [name]) known (← endLine? rest)
      | _ => none
    | '[' :: rest => do
      let ((steps, name), rest) ← dottedName fuel rest
      match rest with
      | ']' :: rest =>
        let known ← Node.enter (Node.openTable name) steps known
        document fuel (steps ++ [name]) known (← endLine? rest)
      | _ => none
    | text =>
      match endLine? text with
      | some rest => document fuel path known rest
      | none => do
        let ((steps, name), rest) ← dottedName fuel text
        match rest with
        | '=' :: rest =>
          let (v, rest) ← value fuel 0 (skipBlanks rest)
          let known ← Node.enter (Node.assign name v steps) path known
          document fuel path known (← endLine? rest)
        | _ => none

/-- The mark that may stand in front of a document. -/
def byteOrderMark : Char := '\uFEFF'

/-- The settings in a document. -/
def read? (text : String) : Option Setting :=
  let text := match text.toList with
    | c :: rest => if c = byteOrderMark then rest else c :: rest
    | [] => []
  (document (2 * text.length + 2) [] [] text).map fun fs => .table (Node.fieldSettings fs)

end PhotoImport.Toml
