import PhotoImport.Json.Compact

/-!
# Reading JSON numbers

A number without a fraction and a power of ten is an integer if it fits 64 bits, with a sign or
without. Every other number becomes a binary64 number in three rounded steps: its digits are
gathered in an unsigned word of 64 bits, the word is rounded to binary64, and the result is
multiplied with or divided by a power of ten. A digit that would overflow the word is not gathered,
nor is any digit after it on its side of the point; in front of the point such digits still count as
places. So the result may differ from the nearest number in its last digits.

A number that is too large for the format is refused; one that is too small becomes zero.
-/

namespace PhotoImport.Json.Number

/-- The first natural number that is too large for a word of 64 bits. -/
def wordLimit : Nat := Nat.pow 2 64

/-- The value of a digit. -/
def digitValue (c : Char) : Nat := c.toNat - '0'.toNat

/-- The value of some digits. -/
def valueOf (ds : List Char) : Nat := ds.foldl (fun n c => 10 * n + digitValue c) 0

/-- Gathers digits behind the value `n` while it fits the word; the value and the digits that are
left. -/
def gather (n : Nat) : List Char → Nat × List Char
  | [] => (n, [])
  | d :: ds =>
    let next := 10 * n + digitValue d
    if next < wordLimit then gather next ds else (n, d :: ds)

/-- The parts of a number as it is spelled. -/
structure Parts where
  negative : Bool
  /-- The digits in front of the point. -/
  whole : List Char
  /-- The digits behind the point, if there is one. -/
  fraction : Option (List Char)
  /-- Whether the power of ten is negative, and its digits, if there is one. -/
  power : Option (Bool × List Char)

/-- The parts of a number. There is no zero in front of other digits, and there are digits at every
place where there may be some. -/
def parts? (text : List Char) : Option Parts :=
  let negative := text.head? == some '-'
  let text := if negative then text.drop 1 else text
  let whole := text.takeWhile Char.isDigit
  let rest := text.dropWhile Char.isDigit
  let (fraction, rest) := match rest with
    | '.' :: rest => (some (rest.takeWhile Char.isDigit), rest.dropWhile Char.isDigit)
    | _ => (none, rest)
  let (power, rest) := match rest with
    | 'e' :: '-' :: rest | 'E' :: '-' :: rest =>
      (some (true, rest.takeWhile Char.isDigit), rest.dropWhile Char.isDigit)
    | 'e' :: '+' :: rest | 'E' :: '+' :: rest | 'e' :: rest | 'E' :: rest =>
      (some (false, rest.takeWhile Char.isDigit), rest.dropWhile Char.isDigit)
    | _ => (none, rest)
  if whole = [] ∨ (whole.head? = some '0' ∧ whole ≠ ['0']) ∨ fraction = some [] ∨
      power.map (·.2) = some [] ∨ rest ≠ [] then none
  else some ⟨negative, whole, fraction, power⟩

/-- The greatest power of ten that is used at once. -/
def stepLimit : Nat := 308

/-- A power of ten, rounded. -/
def powerOfTen (n : Nat) : Binary64 := (Binary64.nearest? (Nat.pow 10 n) 1).getD Binary64.zero

/-- A number divided `steps` times by `10 ^ stepLimit`. -/
def shiftSteps : (steps : Nat) → Binary64 → Option Binary64
  | 0, x => some x
  | steps + 1, x =>
    if x.significand = 0 then some x
    else (x.div? (powerOfTen stepLimit)).bind (shiftSteps steps)

/-- A number divided by `10 ^ n`, as far as possible in steps of `stepLimit` places. -/
def shiftDown (x : Binary64) (n : Nat) : Option Binary64 :=
  let steps := (n - 1) / stepLimit
  (shiftSteps steps x).bind fun y => y.div? (powerOfTen (n - steps * stepLimit))

/-- A word times `10 ^ place`. -/
def ofWord? (word : Nat) (place : Int) : Option Binary64 :=
  match Binary64.nearest? word 1 with
  | none => none
  | some x =>
    if place < 0 then shiftDown x place.natAbs
    else if place.natAbs ≤ stepLimit then x.mul? (powerOfTen place.natAbs)
    else if word = 0 then some x
    else none

/-- The first power of ten that is too large to be counted. -/
def powerLimit : Nat := Nat.pow 2 31

/-- The number with the given parts as a binary64 number. -/
def Parts.double? (p : Parts) : Option Binary64 :=
  let (word, skipped) := gather 0 p.whole
  let fraction := p.fraction.getD []
  let (word, ignored) := gather word fraction
  let place : Int := (skipped.length : Int) - (fraction.length - ignored.length : Nat)
  match p.power with
  | none => ofWord? word place
  | some (down, ds) =>
    if valueOf ds < powerLimit then
      ofWord? word (if down then place - valueOf ds else place + valueOf ds)
    else if down ∨ word = 0 then some Binary64.zero
    else none

/-- The number spelled by a text. -/
def read? (text : List Char) : Option Number :=
  match parts? text with
  | none => none
  | some p =>
    let n := valueOf p.whole
    if p.fraction = none ∧ p.power = none ∧ p.negative = false ∧ n < wordLimit then
      some (.integer n)
    else if p.fraction = none ∧ p.power = none ∧ p.negative ∧ n ≠ 0 ∧ n ≤ wordLimit / 2 then
      some (.integer (-n))
    else p.double?.map (.double p.negative)

end PhotoImport.Json.Number
