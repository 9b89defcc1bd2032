import PhotoImport.Json.Number

/-!
# Numerals

The decimal numerals that formats for settings share: an optional sign, digits with an optional
point before, between or behind them, and an optional power of ten.
-/

namespace PhotoImport.Numeral

/-- A text without a sign at its front. -/
def unsigned : List Char → List Char
  | '+' :: rest => rest
  | '-' :: rest => rest
  | text => text

/-- Whether a text is one or more characters of a class. -/
def isRunOf (p : Char → Bool) (text : List Char) : Bool := !text.isEmpty && text.all p

/-- The parts of an unsigned decimal numeral: the digits before and behind the point, and the power
of ten. -/
structure Parts where
  whole : List Char
  fraction : List Char
  power : Int

/-- The parts of a decimal numeral. -/
def parts? (text : List Char) : Option Parts :=
  let text := unsigned text
  let mantissa := text.takeWhile fun c => c != 'e' && c != 'E'
  let whole := mantissa.takeWhile (· != '.')
  let fraction := mantissa.drop (whole.length + 1)
  let power := text.drop (mantissa.length + 1)
  let digits := unsigned power
  if isRunOf Char.isDigit (whole ++ fraction) ∧
      (mantissa.length = text.length ∨ isRunOf Char.isDigit digits) then
    let size : Int := Json.Number.valueOf digits
    some ⟨whole, fraction, if power.head? = some '-' then -size else size⟩
  else none

/-- Whether a text is a decimal numeral. -/
def isDecimal (text : List Char) : Bool := (parts? text).isSome

/-- Whether the number of a numeral is too large for binary64. -/
def Parts.isTooLarge (p : Parts) : Bool :=
  let digits := (p.whole ++ p.fraction).dropWhile (· == '0')
  let place := p.power - p.fraction.length
  let lead := place + digits.length
  if digits.isEmpty ∨ lead < 300 then false
  else if 320 < lead then true
  else
    let n := Json.Number.valueOf digits
    let (num, den) :=
      if 0 ≤ place then (n * Nat.pow 10 place.toNat, 1) else (n, Nat.pow 10 (-place).toNat)
    (Binary64.nearest? num den).isNone

/-- Whether a text is a decimal numeral whose number is not too large. -/
def isFinite (text : List Char) : Bool :=
  match parts? text with
  | none => false
  | some p => !p.isTooLarge

/-- Whether a text is an integer of 64 bits, with a sign or without. -/
def isWord (text : List Char) : Bool :=
  let digits := unsigned text
  let limit := if text.head? = some '-' then Nat.pow 2 63 + 1 else Nat.pow 2 64
  isRunOf Char.isDigit digits && Json.Number.valueOf digits < limit

end PhotoImport.Numeral
