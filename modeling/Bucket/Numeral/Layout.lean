/-
# The text of a real

A real is written with the fewest digits that read back as the same real. From one ten-thousandth
up to ten to the power sixteen the point stands in its place and has a digit on both sides.
Outside that range the first digit is followed by an exponent.
-/
import Bucket.Numeral.Decimal

namespace Bucket.Numeral

/-! ## Where the point stands -/

/-- Digits without the zeros at their end. -/
def dropFinalZeros (digits : List Char) : List Char :=
  (digits.reverse.dropWhile (· == '0')).reverse

/-- The text of an exponent. -/
def exponentText (e : Int) : List Char :=
  if e < 0 then '-' :: Nat.toDigits 10 (-e).toNat else Nat.toDigits 10 e.toNat

/-- Digits with the point after the place of weight one, where the first digit has weight ten to the
power `e`. -/
def positional (digits : List Char) (e : Int) : List Char :=
  if e < 0 then
    '0' :: '.' :: (List.replicate (-e - 1).toNat '0' ++ digits)
  else
    let whole := e.toNat + 1
    let fraction := digits.drop whole
    digits.take whole ++ List.replicate (whole - digits.length) '0' ++
      '.' :: (if fraction.isEmpty then ['0'] else fraction)

/-- Digits with the point after the first one, when there are more, and an exponent. -/
def scientific (digits : List Char) (e : Int) : List Char :=
  digits.take 1 ++ (if digits.length ≤ 1 then [] else '.' :: digits.drop 1) ++
    'e' :: exponentText e

/-- The text of a decimal that is not zero. -/
def Decimal.layout (d : Decimal) : List Char :=
  let digits := dropFinalZeros (Nat.toDigits 10 d.digits)
  let e := d.order - 1
  if -4 ≤ e ∧ e < 16 then positional digits e else scientific digits e

/-! ## Reals -/

namespace Binary64

/-- The characters of a real. -/
def chars (x : Binary64) : List Char :=
  if x.isNaN then ['N', 'a', 'N']
  else
    (if x.isNegative then ['-'] else []) ++
      (if ¬ x.isFinite then ['i', 'n', 'f']
      else if x.size = 0 then ['0', '.', '0']
      else (Decimal.shortest (.ofSize x.size)).layout)

/-- The text of a real. -/
def text (x : Binary64) : String := String.ofList x.chars

end Binary64

end Bucket.Numeral
