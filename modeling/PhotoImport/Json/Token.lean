import PhotoImport.Json.Number
import PhotoImport.Text.Escape

/-!
# The tokens of JSON

A text is cut into tokens one character at a time. Between tokens there may be blanks. A *bare word*
(a number or one of the three names) ends where a character follows that cannot belong to one, and
is judged then. In a string a control character has to be escaped, and an escape for the first half
of a surrogate pair has to be followed by one for the second half.
-/

namespace PhotoImport.Json

/-- A token. -/
inductive Token where
  | openList
  | closeList
  | openObject
  | closeObject
  | colon
  | comma
  | scalar (v : Value Number)
  | text (s : String)

/-- Where the scanner stands. What has been read of a token is held in reverse. -/
inductive ScanState where
  | between
  | word (seen : List Char)
  | text (seen : List Char)
  /-- Behind a backslash. -/
  | escape (seen : List Char)
  /-- Inside an escape by number, of which `missing` digits are to come; `high` is the first half
  of a surrogate pair if one came before. -/
  | code (seen : List Char) (high : Option Nat) (missing value : Nat)
  /-- Behind the first half of a surrogate pair. -/
  | pair (seen : List Char) (high : Nat)
  /-- Behind the first half and a backslash. -/
  | pairEscape (seen : List Char) (high : Nat)

/-- Whether a character may belong to a bare word. -/
def isWordChar (c : Char) : Bool := c.isAlphanum || c == '+' || c == '-' || c == '.'

/-- The value of a bare word. -/
def wordValue? (word : List Char) : Option (Value Number) :=
  if word = "null".toList then some .null
  else if word = "true".toList then some (.bool true)
  else if word = "false".toList then some (.bool false)
  else (Number.read? word).map .number

/-- What a character outside bare words and strings does. -/
def scanBetween (c : Char) : Option (List Token × ScanState) :=
  if c = ' ' ∨ c = '\t' ∨ c = '\n' ∨ c = '\r' then some ([], .between)
  else if c = '[' then some ([.openList], .between)
  else if c = ']' then some ([.closeList], .between)
  else if c = openBrace then some ([.openObject], .between)
  else if c = closeBrace then some ([.closeObject], .between)
  else if c = ':' then some ([.colon], .between)
  else if c = ',' then some ([.comma], .between)
  else if c = '"' then some ([], .text [])
  else if isWordChar c then some ([], .word [c])
  else none

/-- The character of an escape by a letter. -/
def letterEscape? (c : Char) : Option Char :=
  match c with
  | '"' => some '"'
  | '\\' => some '\\'
  | '/' => some '/'
  | 'b' => some '\x08'
  | 'f' => some '\x0c'
  | 'n' => some '\n'
  | 'r' => some '\r'
  | 't' => some '\t'
  | _ => none

/-- What the number of an escape stands for, behind the first half of a pair if there was one. -/
def endCode (seen : List Char) (high : Option Nat) (value : Nat) : Option ScanState :=
  let isHigh := 0xD800 ≤ value ∧ value < 0xDC00
  let isLow := 0xDC00 ≤ value ∧ value < 0xE000
  match high with
  | none =>
    if isHigh then some (.pair seen value)
    else if isLow then none
    else some (.text (Char.ofNat value :: seen))
  | some h =>
    if isLow then
      some (.text (Char.ofNat (0x10000 + (h - 0xD800) * 0x400 + (value - 0xDC00)) :: seen))
    else none

/-- What one character does. -/
def scanStep (s : ScanState) (c : Char) : Option (List Token × ScanState) :=
  match s with
  | .between => scanBetween c
  | .word seen =>
    if isWordChar c then some ([], .word (c :: seen))
    else do
      let v ← wordValue? seen.reverse
      let (tokens, next) ← scanBetween c
      some (.scalar v :: tokens, next)
  | .text seen =>
    if c = '"' then some ([.text (String.ofList seen.reverse)], .between)
    else if c = '\\' then some ([], .escape seen)
    else if c.toNat < 32 then none
    else some ([], .text (c :: seen))
  | .escape seen =>
    if c = 'u' then some ([], .code seen none 4 0)
    else (letterEscape? c).map fun e => ([], .text (e :: seen))
  | .code seen high missing value =>
    match Escape.hexValue? c with
    | none => none
    | some d =>
      let value := 16 * value + d
      if missing ≤ 1 then (endCode seen high value).map ([], ·)
      else some ([], .code seen high (missing - 1) value)
  | .pair seen high => if c = '\\' then some ([], .pairEscape seen high) else none
  | .pairEscape seen high => if c = 'u' then some ([], .code seen (some high) 4 0) else none

/-- The tokens of a text, for a scanner that stands in `s`. -/
def scan (s : ScanState) : List Char → Option (List Token)
  | [] =>
    match s with
    | .between => some []
    | .word seen => (wordValue? seen.reverse).map ([.scalar ·])
    | _ => none
  | c :: cs => do
    let (tokens, next) ← scanStep s c
    let rest ← scan next cs
    some (tokens ++ rest)

end PhotoImport.Json
