import PhotoImport.Calendar.DateTime
import PhotoImport.Decimal.Padded

/-!
# Date patterns

A pattern such as `yyyy-MM-dd` or `HH'h'mm` describes how a moment is written. A run of one letter is
a field, and how often the letter stands says how wide the field is or how its name is spelled. Text
between single quotes is copied, a doubled quote is a quote, and everything else, letters without
a meaning among it, is copied too.

Reading a pattern takes two steps. `items` resolves the quotes and leaves a list of characters that
are either copied or letters; `parts` gathers neighbouring equal letters into runs. A quoted text is
never empty, so letters that are neighbours among the items were neighbours in the pattern.
-/

namespace PhotoImport.DatePattern

/-- A character of a pattern whose quotes have been resolved. -/
inductive Item where
  | copied (c : Char)
  | letter (c : Char)
deriving DecidableEq

/-- A part of a pattern: a character to copy, or a letter that stands `count` times. -/
inductive Part where
  | copied (c : Char)
  | field (letter : Char) (count : Nat)
deriving DecidableEq

/-- The pattern letters. -/
def isLetter (c : Char) : Bool := ('a' ≤ c && c ≤ 'z') || ('A' ≤ c && c ≤ 'Z')

/-- What a character outside quotes is. -/
def Item.ofChar (c : Char) : Item := if isLetter c then .letter c else .copied c

/-- The items of a pattern, read from inside or outside a quoted text. -/
def items : Bool → List Char → List Item
  | _, [] => []
  | quoted, '\'' :: '\'' :: rest => .copied '\'' :: items quoted rest
  | quoted, '\'' :: rest => items (!quoted) rest
  | quoted, c :: rest => (if quoted then .copied c else .ofChar c) :: items quoted rest

/-- One more item in front of the parts. -/
def Part.cons : Item → List Part → List Part
  | .copied c, parts => .copied c :: parts
  | .letter c, .field d count :: parts =>
    if c = d then .field d (count + 1) :: parts else .field c 1 :: .field d count :: parts
  | .letter c, parts => .field c 1 :: parts

/-- Neighbouring equal letters as runs. -/
def parts (items : List Item) : List Part := items.foldr Part.cons []

/-! ### Fields -/

/-- The name of a month, which is counted from 1. -/
def monthName : Nat → String
  | 1 => "January"
  | 2 => "February"
  | 3 => "March"
  | 4 => "April"
  | 5 => "May"
  | 6 => "June"
  | 7 => "July"
  | 8 => "August"
  | 9 => "September"
  | 10 => "October"
  | 11 => "November"
  | _ => "December"

/-- The name of a day of the week, with 0 for Monday. -/
def weekdayName : Nat → String
  | 0 => "Monday"
  | 1 => "Tuesday"
  | 2 => "Wednesday"
  | 3 => "Thursday"
  | 4 => "Friday"
  | 5 => "Saturday"
  | _ => "Sunday"

/-- A name in full, or its first three letters. -/
def nameOrShort (name : String) (short : Bool) : List Char :=
  if short then name.toList.take 3 else name.toList

/-- The hour on a dial of twelve. -/
def twelveHour (hour : Nat) : Nat := if hour % 12 = 0 then 12 else hour % 12

/-- The first `count` digits of the fraction of a second, with zeros behind the ninth. -/
def fraction (nanosecond count : Nat) : List Char :=
  let digits := (Decimal.padded nanosecond 9).take count
  digits ++ List.replicate (count - digits.length) '0'

/-- How a moment is written for a letter that stands `count` times. -/
def field (t : DateTime) (letter : Char) (count : Nat) : List Char :=
  let number (n : Int) := Decimal.padded n count
  match letter with
  | 'y' | 'u' => if count = 2 then Decimal.padded (t.year % 100) 2 else number t.year
  | 'M' | 'L' => if count ≤ 2 then number t.month else nameOrShort (monthName t.month) (count = 3)
  | 'd' => number t.day
  | 'D' => number t.ordinal
  | 'E' | 'e' | 'c' => nameOrShort (weekdayName t.weekday) (count ≤ 3)
  | 'H' => number t.hour
  | 'k' => number (if t.hour = 0 then 24 else t.hour : Nat)
  | 'h' => number (twelveHour t.hour)
  | 'K' => number (t.hour % 12 : Nat)
  | 'm' => number t.minute
  | 's' => number t.second
  | 'S' => fraction t.nanosecond count
  | 'a' => if t.hour < 12 then ['A', 'M'] else ['P', 'M']
  | other => List.replicate count other

/-- How a moment is written for one part. -/
def Part.write (t : DateTime) : Part → List Char
  | .copied c => [c]
  | .field letter count => DatePattern.field t letter count

/-- A moment as a pattern describes it. -/
def formatChars (t : DateTime) (pattern : List Char) : List Char :=
  (parts (items false pattern)).flatMap (Part.write t)

/-- A moment as a pattern describes it. -/
def format (t : DateTime) (pattern : String) : String :=
  String.ofList (formatChars t pattern.toList)

end PhotoImport.DatePattern
