import PhotoImport.Decimal.Binary64
import PhotoImport.Decimal.Padded

/-!
# The shortest digits of a number

The numbers that round to a binary64 number form an interval, of which the ends belong to it if the
significand is even. `Decimal.shortest` gives the decimal number with the fewest digits that lies in
this interval, of two such numbers the nearer one, and of two that are equally near the one whose
last digit is even. It looks at one grid of decimal numbers after the other, from one digit to
seventeen; on a grid only the two neighbours of the number can lie in the interval if any point does.
-/

namespace PhotoImport.Decimal

/-- The interval of the numbers that round to one: its bounds and the number itself, over one
denominator. -/
structure Interval where
  low : Nat
  value : Nat
  high : Nat
  den : Nat
  /-- Whether the ends belong to the interval. -/
  closed : Bool

/-- The interval around a number. Below a power of two the neighbours are twice as dense. -/
def Interval.around (x : Binary64) : Interval :=
  let (unit, den) := Binary64.scale 1 4 x.exponent
  let narrow := x.significand = Nat.pow 2 (Binary64.precision - 1) ∧
    Binary64.leastExponent < x.exponent
  { low := (4 * x.significand - if narrow then 1 else 2) * unit
    value := 4 * x.significand * unit
    high := (4 * x.significand + 2) * unit
    den
    closed := x.significand % 2 = 0 }

/-- Whether `n · 10 ^ place` lies in an interval. -/
def Interval.contains (i : Interval) (n : Nat) (place : Int) : Bool :=
  let (num, den) :=
    if 0 ≤ place then (n * Nat.pow 10 place.toNat, 1) else (n, Nat.pow 10 (-place).toNat)
  let at_ := num * i.den
  let low := i.low * den
  let high := i.high * den
  if i.closed then low ≤ at_ && at_ ≤ high else low < at_ && at_ < high

/-- The place of the first digit of a positive quotient. -/
def leadingPlace (num den : Nat) : Int :=
  if den ≤ num then ((digits (num / den)).length : Int) - 1
  else - ((digits ((den + num - 1) / num - 1)).length : Int)

/-- The point of the grid of multiples of `10 ^ place` that lies in the interval and is nearest to
its value, the even one of two that are equally near, if there is one. -/
def Interval.pick? (i : Interval) (place : Int) : Option Nat :=
  let (num, den) :=
    if 0 ≤ place then (i.value, i.den * Nat.pow 10 place.toNat)
    else (i.value * Nat.pow 10 (-place).toNat, i.den)
  let below := num / den
  let twice := 2 * (num % den)
  let nearBelow := twice < den ∨ (twice = den ∧ below % 2 = 0)
  match i.contains below place, i.contains (below + 1) place with
  | false, false => none
  | true, false => some below
  | false, true => some (below + 1)
  | true, true => some (if nearBelow then below else below + 1)

/-- A number without the zeros at its end, and their count added to its place. -/
def dropZeros (n : Nat) (place : Int) : Nat × Int :=
  if h : n ≠ 0 ∧ n % 10 = 0 then dropZeros (n / 10) (place + 1) else (n, place)
termination_by n
decreasing_by omega

/-- The first grid from `count` digits on that has a point in the interval. -/
def Interval.search (i : Interval) (lead : Int) : (tries count : Nat) → Nat × Int
  | 0, count => (i.value / i.den, lead - count)
  | tries + 1, count =>
    let place := lead - count + 1
    match i.pick? place with
    | some n => dropZeros n place
    | none => i.search lead tries (count + 1)

/-- The digits `n` and the place `p` of the shortest decimal number `n · 10 ^ p` that reads back. -/
def shortest (x : Binary64) : Nat × Int :=
  if x.significand = 0 then (0, 0)
  else
    let i := Interval.around x
    i.search (leadingPlace i.value i.den) 17 1

end PhotoImport.Decimal
