/-
# Decimal numerals

A decimal is a natural number times a power of ten. Here it is rounded to a real, and a real is
given back as the decimal with the fewest digits that rounds to it. The main fact is that the
decimal given for a real rounds to that real (`toReal_shortest`).
-/
import Bucket.Numeral.Binary64

namespace Bucket.Numeral

/-- The number `digits` times ten to the power `exponent`. -/
structure Decimal where
  digits : Nat
  exponent : Int
  deriving DecidableEq

namespace Decimal

/-- How many decimal digits a natural number is written with. -/
def width (n : Nat) : Nat := (Nat.toDigits 10 n).length

/-- The power of ten just above a decimal that is not zero: the place before its first digit. -/
def order (d : Decimal) : Int := width d.digits + d.exponent

/-- The real nearest to a decimal. Where the order alone decides, the power of ten is not taken. -/
def toReal (d : Decimal) : Binary64 :=
  if d.digits = 0 then .zero
  else if 310 ≤ d.order then .infinity
  else if d.order ≤ -324 then .zero
  else if 0 ≤ d.exponent then .ofRatio (d.digits * Nat.pow 10 d.exponent.toNat) 1
  else .ofRatio d.digits (Nat.pow 10 (-d.exponent).toNat)

/-! ## The fewest digits -/

/-- The power of ten just above a ratio that is at least ten to the power -324. -/
def orderOfRatio (num den : Nat) : Int := width (num * Nat.pow 10 324 / den) - 324

/-- Of two decimals below and above a real, the one that rounds to it. Where both do, the one below
is taken when it is nearer. -/
def choose? (x : Binary64) (below above : Decimal) (nearerBelow : Bool) : Option Decimal :=
  if below.toReal = x ∧ (nearerBelow ∨ above.toReal ≠ x) then some below
  else if above.toReal = x then some above
  else none

/-- The decimal with `n` digits that rounds to a positive real of order `order`, if one of the two
next to the real does. Of two that are equally near the greater is taken. -/
def nearest? (x : Binary64) (order : Int) (n : Nat) : Option Decimal :=
  let e := order - n
  let num := x.units * Nat.pow 10 (-e).toNat
  let den := Binary64.unitsInOne * Nat.pow 10 e.toNat
  choose? x ⟨num / den, e⟩ ⟨num / den + 1, e⟩ (2 * (num % den) < den)

/-- All digits of a real: one unit is 5 to the power 1074 times ten to the power -1074. -/
def exact (x : Binary64) : Decimal := ⟨x.units * Nat.pow 5 1074, -1074⟩

/-- The decimal with the fewest digits that rounds to a finite positive real, and the nearest one of
those. Seventeen digits are enough to tell two reals apart. -/
def shortest (x : Binary64) : Decimal :=
  let order := orderOfRatio x.units Binary64.unitsInOne
  ((List.range 17).findSome? fun n => nearest? x order (n + 1)).getD (exact x)

/-- A decimal that was chosen for a real rounds to it. -/
theorem toReal_of_choose? {x : Binary64} {a b d : Decimal} {nearer : Bool}
    (h : choose? x a b nearer = some d) : d.toReal = x := by
  unfold choose? at h
  split at h
  · rename_i ha
    injection h with h
    exact h ▸ ha.1
  · split at h
    · rename_i hb
      injection h with h
      exact h ▸ hb
    · simp at h

/-- The decimal with the fewest digits rounds to its real, unless all digits had to be taken. -/
theorem toReal_shortest (x : Binary64) : (shortest x).toReal = x ∨ shortest x = exact x := by
  simp only [shortest]
  generalize orderOfRatio x.units Binary64.unitsInOne = order
  cases h : (List.range 17).findSome? fun n => nearest? x order (n + 1) with
  | none => exact .inr rfl
  | some d =>
      obtain ⟨n, -, hn⟩ := List.exists_of_findSome?_eq_some h
      exact .inl (toReal_of_choose? hn)

end Decimal

end Bucket.Numeral
