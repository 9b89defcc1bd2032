import PhotoImport.Calendar.DateTime
import PhotoImport.Text.Blank

/-!
# Camera time stamps

Cameras write a moment as `2024:01:31 18:05:59`: a year of four digits, which may have a sign, and
five fields of two digits. A stamp that names no existing moment is no stamp, and neither is one
with anything behind it; blanks around it do not count.
-/

namespace PhotoImport.Stamp

/-- The value of a decimal digit. -/
def digit? (c : Char) : Option Nat :=
  if '0' ≤ c ∧ c ≤ '9' then some (c.toNat - '0'.toNat) else none

/-- A number of exactly `count` digits at the front, and what follows it. -/
def number? : Nat → Nat → List Char → Option (Nat × List Char)
  | 0, value, rest => some (value, rest)
  | _ + 1, _, [] => none
  | count + 1, value, c :: rest => do
    let d ← digit? c
    number? count (value * 10 + d) rest

/-- What follows an expected character. -/
def expect? (c : Char) : List Char → Option (List Char)
  | [] => none
  | x :: rest => if x = c then some rest else none

/-- A year at the front, and what follows it. -/
def year? : List Char → Option (Int × List Char)
  | '-' :: rest => (number? 4 0 rest).map fun (n, rest) => (-(n : Int), rest)
  | '+' :: rest => (number? 4 0 rest).map fun (n, rest) => ((n : Int), rest)
  | rest => (number? 4 0 rest).map fun (n, rest) => ((n : Int), rest)

/-- The moment that a whole stamp names. -/
def readChars? (chars : List Char) : Option DateTime := do
  let (year, rest) ← year? chars
  let (month, rest) ← number? 2 0 (← expect? ':' rest)
  let (day, rest) ← number? 2 0 (← expect? ':' rest)
  let (hour, rest) ← number? 2 0 (← expect? ' ' rest)
  let (minute, rest) ← number? 2 0 (← expect? ':' rest)
  let (second, rest) ← number? 2 0 (← expect? ':' rest)
  if rest = [] then DateTime.make? year month day hour minute second 0 else none

/-- The moment that a text names, apart from blanks at its ends. -/
def read? (text : String) : Option DateTime :=
  readChars? (trimEnds isBlank text.toList)

end PhotoImport.Stamp
