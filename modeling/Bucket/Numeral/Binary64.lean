/-
# Binary floating point

Reals are binary64 numbers, held as their 64 bits. All calculation is exact and on natural numbers:
the size of a finite number is a count of units, where one unit is the least positive number,
2 to the power -1074. A ratio of natural numbers is rounded to the nearest number, and to the one
with an even last bit when two are equally near.
-/

namespace Bucket.Numeral

/-- A binary64 number: one sign bit, eleven exponent bits and fifty-two fraction bits. -/
structure Binary64 where
  bits : UInt64
  deriving DecidableEq

namespace Binary64

/-! ## The parts of a number -/

/-- The number of fractions: 2 to the power 52. -/
def fractionSize : Nat := Nat.pow 2 52

/-- The weight of the sign bit: 2 to the power 63. -/
def signSize : Nat := Nat.pow 2 63

/-- The bits below the sign for an infinity. What is above them is not a number. -/
def infiniteSize : Nat := 2047 * fractionSize

/-- How many of the least positive number make one. -/
def unitsInOne : Nat := Nat.pow 2 1074

/-- The bits below the sign. They grow with the size of the number. -/
def size (x : Binary64) : Nat := x.bits.toNat % signSize

/-- Whether the sign bit is set. -/
def isNegative (x : Binary64) : Bool := signSize ≤ x.bits.toNat

/-- Whether this is not a number. -/
def isNaN (x : Binary64) : Bool := infiniteSize < x.size

/-- Whether this is a number that is not infinite. -/
def isFinite (x : Binary64) : Bool := x.size < infiniteSize

/-- The number that is not negative and has the given bits below its sign. -/
def ofSize (n : Nat) : Binary64 := ⟨UInt64.ofNat n⟩

/-- The zero that is not negative. -/
def zero : Binary64 := ofSize 0

/-- The infinity that is not negative. -/
def infinity : Binary64 := ofSize infiniteSize

/-- How many times the least positive number a finite number is, its sign left out. -/
def units (x : Binary64) : Nat :=
  if x.size < fractionSize then x.size
  else (fractionSize + x.size % fractionSize) * Nat.pow 2 (x.size / fractionSize - 1)

/-- Numbers are equal when they have the same value: both zeros are, and what is not a number is
equal to nothing. -/
def equals (x y : Binary64) : Bool :=
  !x.isNaN && !y.isNaN && (x.bits == y.bits || x.size == 0 && y.size == 0)

/-! ## Rounding -/

/-- A quotient of natural numbers, rounded to the nearest one. A half goes to the even neighbour. -/
def roundHalfEven (num den : Nat) : Nat :=
  let q := num / den
  let r := num % den
  if 2 * r < den then q
  else if den < 2 * r then q + 1
  else if q % 2 = 0 then q else q + 1

/-- The number nearest to a ratio. The ratio is counted in units, as many low bits are left out as
keep fifty-three, and what would need more than the greatest exponent is infinite. -/
def ofRatio (num den : Nat) : Binary64 :=
  let scaled := num * unitsInOne
  let dropped := (scaled / den).log2 - 52
  let significand := roundHalfEven scaled (den * Nat.pow 2 dropped)
  ofSize (min (dropped * fractionSize + significand) infiniteSize)

end Binary64

end Bucket.Numeral
