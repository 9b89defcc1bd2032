/-!
# Padded decimal numbers

`digits` writes a natural number in base ten without leading zeros, and `padded` fills a number up
with zeros to a least width that counts the sign. A number is never cut.
-/

namespace PhotoImport.Decimal

/-- The decimal digits of `n`, at least one. -/
def digits (n : Nat) : List Char := Nat.toDigits 10 n

/-- `n` in decimal, filled up to `width` characters with zeros behind the sign. -/
def padded (n : Int) (width : Nat) : List Char :=
  let sign := if n < 0 then ['-'] else []
  let body := digits n.natAbs
  sign ++ List.replicate (width - (sign.length + body.length)) '0' ++ body

end PhotoImport.Decimal
