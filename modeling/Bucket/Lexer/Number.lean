/-
# Numbers

A number has up to three parts: the digits before the point, a point with any digits after it, and
an exponent. The last two make it a real. The main facts are that the parts found are the text that
was read (`readNumber_append`).
-/
import Bucket.Diagnostic
import Bucket.Numeral.Decimal
import Bucket.Token.Basic
import Bucket.Unicode.Alphabetic

namespace Bucket.Lexer

open Numeral (Binary64 Decimal)

/-! ## Parts of a number -/

/-- An exponent as it is written. -/
structure Exponent where
  letter : Char
  sign : Option Char
  digits : List Char
  deriving DecidableEq

/-- A number as it is written. The fraction is present when there is a point. -/
structure Number where
  whole : List Char
  fraction : Option (List Char)
  exponent : Option Exponent
  deriving DecidableEq

namespace Exponent

/-- The characters of an exponent. -/
def chars (e : Exponent) : List Char := e.letter :: (e.sign.toList ++ e.digits)

/-- The power of ten that an exponent stands for. -/
def value (e : Exponent) : Int :=
  let n : Int := Nat.ofDigitChars 10 e.digits 0
  if e.sign = some '-' then -n else n

end Exponent

namespace Number

/-- The characters of a fraction, its point included. -/
def fractionChars : Option (List Char) → List Char
  | some digits => '.' :: digits
  | none => []

/-- The characters of an exponent that may be absent. -/
def exponentChars : Option Exponent → List Char
  | some e => e.chars
  | none => []

/-- The characters of a number. -/
def chars (n : Number) : List Char :=
  n.whole ++ (fractionChars n.fraction ++ exponentChars n.exponent)

/-- Whether a number is a real, which it is with a point or an exponent. -/
def isReal (n : Number) : Bool := n.fraction.isSome || n.exponent.isSome

/-- The value of a number without a point and an exponent. -/
def natural (n : Number) : Nat := Nat.ofDigitChars 10 n.whole 0

/-- The value of a number: its digits are moved right by as many places as there are after the
point. -/
def decimal (n : Number) : Decimal :=
  let fraction := n.fraction.getD []
  ⟨Nat.ofDigitChars 10 (n.whole ++ fraction) 0,
    (match n.exponent with | some e => e.value | none => 0) - fraction.length⟩

end Number

/-! ## Reading -/

/-- The sign at the head of a text, if there is one, and what follows. -/
def readSign : List Char → Option Char × List Char
  | '+' :: rest => (some '+', rest)
  | '-' :: rest => (some '-', rest)
  | rest => (none, rest)

/-- The fraction at the head of a text, if there is a point, and what follows. -/
def readFraction : List Char → Option (List Char) × List Char
  | '.' :: rest => (some (rest.takeWhile Char.isDigit), rest.dropWhile Char.isDigit)
  | rest => (none, rest)

/-- The exponent at the head of a text, if there is its letter, and what follows. -/
def readExponent : List Char → Option Exponent × List Char
  | [] => (none, [])
  | c :: rest =>
      if c = 'e' ∨ c = 'E' then
        (some ⟨c, (readSign rest).1, (readSign rest).2.takeWhile Char.isDigit⟩,
          (readSign rest).2.dropWhile Char.isDigit)
      else (none, c :: rest)

/-- The longest number at the head of a text, and what follows. -/
def readNumber (text : List Char) : Number × List Char :=
  let fraction := readFraction (text.dropWhile Char.isDigit)
  let exponent := readExponent fraction.2
  (⟨text.takeWhile Char.isDigit, fraction.1, exponent.1⟩, exponent.2)

/-- Whether a character may not follow a number. -/
def continuesNumber (c : Char) : Bool := Unicode.isAlphabetic c || c == '_'

/-- What a number means, in front of what follows it, or its fault and how far into the number that
lies. An exponent needs digits, no letter may follow, integers have 64 bits, and reals are finite. -/
def Number.outcome (n : Number) (rest : List Char) : Except (LexicalFault × Nat) Literal :=
  if n.exponent.any (·.digits.isEmpty) then .error (.missingExponent, n.chars.length)
  else if rest.head?.any continuesNumber then .error (.letterInNumber, n.chars.length)
  else if n.isReal then
    let x := n.decimal.toReal
    if x.isFinite then .ok (.real x) else .error (.realTooLarge, 0)
  else if n.natural < UInt64.size then .ok (.integer (.ofNat n.natural))
  else .error (.integerTooLarge, 0)

/-! ## Nothing is lost -/

/-- The sign read and what follows are the text. -/
theorem readSign_append (text : List Char) :
    (readSign text).1.toList ++ (readSign text).2 = text := by
  unfold readSign
  split <;> rfl

/-- The fraction read and what follows are the text. -/
theorem readFraction_append (text : List Char) :
    Number.fractionChars (readFraction text).1 ++ (readFraction text).2 = text := by
  unfold readFraction
  split <;> simp [Number.fractionChars]

/-- The exponent read and what follows are the text. -/
theorem readExponent_append (text : List Char) :
    Number.exponentChars (readExponent text).1 ++ (readExponent text).2 = text := by
  cases text with
  | nil => rfl
  | cons c rest =>
      simp only [readExponent]
      split
      · simp only [Number.exponentChars, Exponent.chars, List.cons_append, List.append_assoc,
          List.takeWhile_append_dropWhile, readSign_append]
      · rfl

/-- The number read and what follows are the text. -/
theorem readNumber_append (text : List Char) :
    (readNumber text).1.chars ++ (readNumber text).2 = text := by
  simp only [readNumber, Number.chars, List.append_assoc, readExponent_append,
    readFraction_append, List.takeWhile_append_dropWhile]

end Bucket.Lexer
