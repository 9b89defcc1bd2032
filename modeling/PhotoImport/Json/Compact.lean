import PhotoImport.Decimal.Shortest
import PhotoImport.Json.Value

/-!
# Compact JSON

Values with their compact text: no blanks, members in the order in which they stand, and in strings
an escape for a quote, a backslash and every control character of ASCII below the space.
-/

namespace PhotoImport.Json

/-- A number: an integer of 64 bits, or any other number rounded to binary64. -/
inductive Number where
  | integer (n : Int)
  | double (negative : Bool) (magnitude : Binary64)
deriving DecidableEq

/-! ### Numbers in text -/

/-- Digits in positional notation, with a point and at least one digit behind it. -/
def positional (ds : List Char) (place : Int) : List Char :=
  let whole := (ds.length : Int) + place
  if 0 ≤ place then ds ++ List.replicate place.toNat '0' ++ ['.', '0']
  else if 0 < whole then ds.take whole.toNat ++ '.' :: ds.drop whole.toNat
  else '0' :: '.' :: (List.replicate (-whole).toNat '0' ++ ds)

/-- Digits with a power of ten behind them. -/
def scientific (ds : List Char) (place : Int) : List Char :=
  let power := place + ds.length - 1
  let fraction := if ds.length ≤ 1 then [] else '.' :: ds.drop 1
  let sign := if power < 0 then '-' else '+'
  ds.take 1 ++ fraction ++ 'e' :: sign :: Decimal.digits power.natAbs

/-- The shortest text of a binary64 number. Those from `10 ^ -5` to below `10 ^ 16` are written in
positional notation, and so is zero. -/
def doubleText (x : Binary64) : List Char :=
  let (n, place) := Decimal.shortest x
  let ds := Decimal.digits n
  let power := place + ds.length - 1
  if n = 0 ∨ (-5 ≤ power ∧ power < 16) then positional ds place else scientific ds place

/-- The text of a number. -/
def Number.text : Number → String
  | .integer n => String.ofList (Decimal.padded n 0)
  | .double negative x => String.ofList ((if negative then ['-'] else []) ++ doubleText x)

/-! ### Strings in text -/

/-- A hexadecimal digit. -/
def hexDigit (n : Nat) : Char := (Nat.digitChar n)

/-- How a character is written in a string. -/
def escaped (c : Char) : List Char :=
  if c = '"' then ['\\', '"']
  else if c = '\\' then ['\\', '\\']
  else if c = '\n' then ['\\', 'n']
  else if c = '\r' then ['\\', 'r']
  else if c = '\t' then ['\\', 't']
  else if c = '\x08' then ['\\', 'b']
  else if c = '\x0c' then ['\\', 'f']
  else if c.toNat < 32 then
    ['\\', 'u', '0', '0', hexDigit (c.toNat / 16), hexDigit (c.toNat % 16)]
  else [c]

/-- A string between quotes. -/
def quoted (s : String) : List Char := '"' :: (s.toList.flatMap escaped ++ ['"'])

/-! ### Values in text -/

/-- The character that opens an object. -/
def openBrace : Char := '\x7b'

/-- The character that closes an object. -/
def closeBrace : Char := '\x7d'

mutual

/-- The compact text of a value. -/
def Value.compact : Value Number → List Char
  | .null => "null".toList
  | .bool true => "true".toList
  | .bool false => "false".toList
  | .number n => n.text.toList
  | .text s => quoted s
  | .list items => '[' :: (compactItems items ++ [']'])
  | .object members => openBrace :: (compactMembers members ++ [closeBrace])

/-- The compact texts of some items, with commas between them. -/
def compactItems : List (Value Number) → List Char
  | [] => []
  | [v] => v.compact
  | v :: rest => v.compact ++ ',' :: compactItems rest

/-- The compact texts of some members, with commas between them. -/
def compactMembers : List (String × Value Number) → List Char
  | [] => []
  | [(k, v)] => quoted k ++ ':' :: v.compact
  | (k, v) :: rest => quoted k ++ ':' :: (v.compact ++ ',' :: compactMembers rest)

end

end PhotoImport.Json
