import PhotoImport.Settings.Value
import PhotoImport.Settings.Numeral
import PhotoImport.Text.Blank
import PhotoImport.Text.Pieces
import PhotoImport.Text.Escape

/-!
# Settings from the environment

Every variable whose name starts with `SHOOTSORT_`, in letters of either case, is a setting. The
rest of the name is the name of the setting in small letters, and dots in it name fields of tables.

The text of a variable may spell a value: `true`, `false`, a list in brackets, a table in braces, a
text in double quotes, a character in single quotes, or a bare text, which ends in front of a comma
or a bracket and is a number if it looks like one. A text that is not spelled so throughout stands
for itself.
-/

namespace PhotoImport.Environment

/-- What the names of settings begin with. -/
def namePrefix : String := "SHOOTSORT_"

/-! ### Values -/

/-- Whether a character may belong to a bare text. -/
def isBare (c : Char) : Bool :=
  !(c == ',' || c == '[' || c == ']' || c == '\x7b' || c == '\x7d')

/-- Whether a character may belong to a bare name in a table. -/
def isNameChar (c : Char) : Bool := c.isAlphanum || c == '_' || c == '-'

/-- What a bare text stands for. -/
def bareValue (text : List Char) : Setting :=
  let text := trimEnds isBlank text
  if (text.contains '.' ∧ Numeral.isDecimal text) ∨ Numeral.isWord text then .number
  else .text (String.ofList text)

/-- The rest of a text in double quotes, behind `seen`, which is in reverse, and what follows. -/
def quotedFrom (seen : List Char) (text : List Char) : Option (String × List Char) :=
  match text with
  | [] => none
  | '"' :: rest => some (String.ofList seen.reverse, rest)
  | '\\' :: rest =>
    match Escape.read? rest with
    | none => none
    | some (c, used) => quotedFrom (c :: seen) (rest.drop used)
  | c :: rest => if c ≠ '\t' ∧ (c.toNat < 32 ∨ c.toNat = 127) then none else quotedFrom (c :: seen) rest
termination_by text.length
decreasing_by all_goals simp only [List.length_cons, List.length_drop]; omega

/-- A text without the blanks at its front. -/
def skipBlanks (text : List Char) : List Char := text.dropWhile isAsciiBlank

/-- The name of a field, and what follows. -/
def fieldName (text : List Char) : Option (String × List Char) :=
  match text with
  | '"' :: rest => quotedFrom [] rest
  | _ =>
    let name := text.takeWhile isNameChar
    if name.isEmpty then none else some (String.ofList name, text.drop name.length)

mutual

/-- The value that a text begins with, and what follows. -/
def value : (fuel : Nat) → List Char → Option (Setting × List Char)
  | 0, _ => none
  | fuel + 1, text => do
    let (v, rest) ← match skipBlanks text with
      | 't' :: 'r' :: 'u' :: 'e' :: rest => some (.bool true, rest)
      | 'f' :: 'a' :: 'l' :: 's' :: 'e' :: rest => some (.bool false, rest)
      | '\x7b' :: rest => (fields fuel [] rest).map fun (fs, rest) => (.table fs, rest)
      | '[' :: rest => (items fuel rest).map fun (vs, rest) => (.list vs, rest)
      | '"' :: rest => (quotedFrom [] rest).map fun (s, rest) => (.text s, rest)
      | '\'' :: c :: '\'' :: rest => some (.text (String.ofList [c]), rest)
      | '\'' :: _ => none
      | text => some (bareValue (text.takeWhile isBare), text.dropWhile isBare)
    some (v, skipBlanks rest)

/-- The items of a list up to its end, and what follows. -/
def items : (fuel : Nat) → List Char → Option (List Setting × List Char)
  | 0, _ => none
  | _ + 1, ']' :: rest => some ([], rest)
  | fuel + 1, text => do
    let (v, rest) ← value fuel text
    match rest with
    | ',' :: rest => (items fuel rest).map fun (vs, rest) => (v :: vs, rest)
    | ']' :: rest => some ([v], rest)
    | _ => none

/-- The fields of a table up to its end, behind some that are known, and what follows. -/
def fields : (fuel : Nat) → List (String × Setting) → List Char →
    Option (List (String × Setting) × List Char)
  | 0, _, _ => none
  | _ + 1, known, '\x7d' :: rest => some (known, rest)
  | fuel + 1, known, text => do
    let (name, rest) ← fieldName (skipBlanks text)
    match skipBlanks rest with
    | '=' :: rest =>
      let (v, rest) ← value fuel rest
      let known := Fields.insert name v known
      match rest with
      | ',' :: rest => fields fuel known rest
      | '\x7d' :: rest => some (known, rest)
      | _ => none
    | _ => none

end

/-- What the text of a variable stands for. -/
def valueOf (text : String) : Setting :=
  match value (2 * text.length + 2) text.toList with
  | some (v, []) => v
  | _ => .text text

/-! ### Names -/

/-- A letter of ASCII as a small letter. -/
def lower (c : Char) : Char := c.toLower

/-- The steps of the setting that a variable is about. -/
def settingPath? (name : String) : Option (List String) :=
  let name := trimEnds isBlank name.toList
  let start := namePrefix.toList
  if start.length < name.length ∧
      (name.take start.length).map lower = start.map lower then
    let steps := Pieces.split '.' ((trimEnds isBlank (name.drop start.length)).map lower)
    if steps.any List.isEmpty then none else some (steps.map String.ofList)
  else none

/-- The value inside tables that lead to it by some steps. -/
def nested (v : Setting) : List String → Setting
  | [] => v
  | step :: steps => .table [(step, nested v steps)]

/-- The settings of some variables, each laid over the ones before it. -/
def settings (assignments : List (String × String)) : Setting :=
  assignments.foldl
    (fun low (name, text) =>
      match settingPath? name with
      | none => low
      | some path => low.overlay (nested (valueOf text) path))
    (.table [])

end PhotoImport.Environment
