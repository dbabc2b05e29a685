/-
# Characters in messages

Two ways to show a character so that a reader can tell which one it is: in plain ASCII, for lists of
tokens, and between single quotes, for messages about one character.
-/
import Bucket.Unicode.GraphemeExtend
import Bucket.Unicode.Unprintable

namespace Bucket.Text

/-- A code point by its number in base sixteen. -/
def byNumber (c : Char) : List Char :=
  ['\x5c', 'u', '\x7b'] ++ Nat.toDigits 16 c.toNat ++ ['\x7d']

/-! ## In plain ASCII -/

/-- A character in printable ASCII. Quotes and the backslash get a backslash, three control
characters have a letter, and what is not printable ASCII goes by its number. -/
def ascii (c : Char) : List Char :=
  match c with
  | '\t' => ['\x5c', 't']
  | '\r' => ['\x5c', 'r']
  | '\n' => ['\x5c', 'n']
  | '\x27' => ['\x5c', '\x27']
  | '\x22' => ['\x5c', '\x22']
  | '\x5c' => ['\x5c', '\x5c']
  | c => if 0x20 ≤ c.toNat ∧ c.toNat ≤ 0x7e then [c] else byNumber c

/-! ## Between quotes -/

/-- A character as it is shown between single quotes. What would not be seen there, or would join
the quote before it, goes by its number. -/
def visible (c : Char) : List Char :=
  match c with
  | '\x00' => ['\x5c', '0']
  | '\t' => ['\x5c', 't']
  | '\r' => ['\x5c', 'r']
  | '\n' => ['\x5c', 'n']
  | '\x27' => ['\x5c', '\x27']
  | '\x5c' => ['\x5c', '\x5c']
  | c => if Unicode.extendsGrapheme c || Unicode.isUnprintable c then byNumber c else [c]

/-- A character between single quotes. -/
def inQuotes (c : Char) : String := String.ofList ('\x27' :: (visible c ++ ['\x27']))

end Bucket.Text
