/-!
# Numbers of 64 bits

The non-negative finite numbers of the binary64 format: `significand · 2 ^ exponent` with a
significand below `2 ^ 53` and an exponent of at least `-1074`, the least exponent that the value
allows. `Binary64.nearest?` rounds a quotient of natural numbers to the nearest such number, a half
to the even neighbour; the operations are the exact ones, rounded once.
-/

namespace PhotoImport

/-- A non-negative finite number of the binary64 format. -/
structure Binary64 where
  significand : Nat
  exponent : Int
deriving DecidableEq

namespace Binary64

/-- The number of binary digits of a significand. -/
def precision : Nat := 53

/-- The least exponent. -/
def leastExponent : Int := -1074

/-- The greatest exponent. -/
def greatestExponent : Int := 971

/-- Zero. -/
def zero : Binary64 := ⟨0, leastExponent⟩

/-- A quotient times a power of two, as a quotient. -/
def scale (num den : Nat) (by_ : Int) : Nat × Nat :=
  if 0 ≤ by_ then (num * Nat.pow 2 by_.toNat, den) else (num, den * Nat.pow 2 (-by_).toNat)

/-- The natural number nearest to a quotient, a half to the even neighbour. -/
def roundDiv (num den : Nat) : Nat :=
  let floor := num / den
  let twice := 2 * (num % den)
  if twice < den then floor
  else if den < twice then floor + 1
  else if floor % 2 = 0 then floor else floor + 1

/-- The greatest power of two that does not exceed a positive quotient. -/
def log2Floor (num den : Nat) : Int :=
  let guess := (num.log2 : Int) - den.log2
  let (n, d) := scale num den (-guess)
  if d ≤ n then guess else guess - 1

/-- The number nearest to a quotient, unless it is too large. -/
def nearest? (num den : Nat) : Option Binary64 :=
  if num = 0 then some zero
  else
    let exponent := max leastExponent (log2Floor num den - (precision - 1))
    let (n, d) := scale num den (-exponent)
    let significand := roundDiv n d
    let rounded : Binary64 :=
      if significand = Nat.pow 2 precision then ⟨Nat.pow 2 (precision - 1), exponent + 1⟩
      else ⟨significand, exponent⟩
    if rounded.exponent ≤ greatestExponent then some rounded else none

/-- The number as a quotient. -/
def ratio (x : Binary64) : Nat × Nat := scale x.significand 1 x.exponent

/-- The product of two numbers, rounded. -/
def mul? (x y : Binary64) : Option Binary64 :=
  nearest? (x.ratio.1 * y.ratio.1) (x.ratio.2 * y.ratio.2)

/-- The quotient of two numbers, rounded; zero behind a division by zero. -/
def div? (x y : Binary64) : Option Binary64 :=
  if y.significand = 0 then some zero
  else nearest? (x.ratio.1 * y.ratio.2) (x.ratio.2 * y.ratio.1)

end Binary64
end PhotoImport
