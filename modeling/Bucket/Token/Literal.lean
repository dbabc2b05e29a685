/-
# Literals

The values that a program writes down: integers of 64 bits, reals, strings, characters and truth
values.
-/
import Bucket.Numeral.Layout
import Bucket.Text.Display
import Bucket.Text.Escape

namespace Bucket

open Numeral (Binary64)

/-- A value written in a program. -/
inductive Literal where
  | integer (value : UInt64)
  | real (value : Binary64)
  | string (value : String)
  | character (value : Char)
  | boolean (value : Bool)
  deriving DecidableEq

namespace Literal

/-- The word for a truth value. -/
def booleanText (b : Bool) : String := if b then "true" else "false"

/-- The truth value that a word stands for, if it is one of the two. -/
def ofText? (word : String) : Option Bool :=
  if word = "true" then some true else if word = "false" then some false else none

/-- The decimal digits of an integer. -/
def integerText (n : UInt64) : String := String.ofList (Nat.toDigits 10 n.toNat)

/-- How a literal is written in a program. -/
def spelling : Literal → List Char
  | integer n => Nat.toDigits 10 n.toNat
  | real x => x.chars
  | string s => Text.quoted '\x22' s.toList
  | character c => Text.quoted '\x27' [c]
  | boolean b => (booleanText b).toList

/-- How a literal stands in a list of tokens. -/
def dump : Literal → String
  | integer n => "<int: " ++ integerText n ++ ">"
  | real x => "<real: " ++ x.text ++ ">"
  | string s => "<\x22" ++ String.ofList (s.toList.flatMap Text.ascii) ++ "\x22>"
  | character c => "<'" ++ String.ofList (Text.ascii c) ++ "'>"
  | boolean b => "<" ++ booleanText b ++ ">"

/-- What a literal is called in a message. -/
def describe : Literal → String
  | integer n => "integer " ++ integerText n
  | real x => "real " ++ x.text
  | string _ => "string literal"
  | character _ => "character literal"
  | boolean b => "boolean " ++ booleanText b

/-- Whether two literals have the same value. Reals are compared as numbers. -/
def equals : Literal → Literal → Bool
  | real x, real y => x.equals y
  | a, b => a == b

end Literal

end Bucket
