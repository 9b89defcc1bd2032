/-!
# Escapes

What stands behind a backslash in a quoted text: a letter, or the number of a character in four or
eight hexadecimal digits.
-/

namespace PhotoImport.Escape

/-- The value of a hexadecimal digit. -/
def hexValue? (c : Char) : Option Nat :=
  if c.isDigit then some (c.toNat - '0'.toNat)
  else if 'a' ≤ c ∧ c ≤ 'f' then some (c.toNat - 'a'.toNat + 10)
  else if 'A' ≤ c ∧ c ≤ 'F' then some (c.toNat - 'A'.toNat + 10)
  else none

/-- The value of some hexadecimal digits. -/
def hexNumber? (digits : List Char) : Option Nat :=
  digits.foldlM (fun n c => (hexValue? c).map (16 * n + ·)) 0

/-- The character with a number that is written in exactly `count` hexadecimal digits. -/
def numbered? (count : Nat) (text : List Char) : Option Char :=
  if (text.take count).length = count then
    match hexNumber? (text.take count) with
    | none => none
    | some n => if n.isValidChar then some (Char.ofNat n) else none
  else none

/-- The character of the escape that a text begins with, and the length of the escape. -/
def read? (text : List Char) : Option (Char × Nat) :=
  match text with
  | '"' :: _ => some ('"', 1)
  | '\\' :: _ => some ('\\', 1)
  | 'b' :: _ => some ('\x08', 1)
  | 'f' :: _ => some ('\x0c', 1)
  | 'n' :: _ => some ('\n', 1)
  | 'r' :: _ => some ('\r', 1)
  | 't' :: _ => some ('\t', 1)
  | 'u' :: rest => (numbered? 4 rest).map (·, 5)
  | 'U' :: rest => (numbered? 8 rest).map (·, 9)
  | _ => none

end PhotoImport.Escape
