/-
# What stands at the head of a text

A text that is not empty begins with a token, with something that is skipped, or with a fault. Words
and numbers are as long as they can be, and so are signs of two characters.
-/
import Bucket.Lexer.Comment
import Bucket.Lexer.Number
import Bucket.Lexer.Quoted
import Bucket.Unicode.DecimalDigit
import Bucket.Unicode.FirstByte
import Bucket.Unicode.Letter

namespace Bucket.Lexer

/-! ## Classes of characters -/

/-- Whether a word can begin with a character. -/
def startsWord (c : Char) : Bool := Unicode.isLetter c || c == '_'

/-- Whether a word can go on with a character. -/
def continuesWord (c : Char) : Bool := startsWord c || Unicode.isDecimalDigit c

/-- Whether a word can go on with a character that has the same first byte as `c`. -/
def sharesFirstByte (c : Char) : Bool :=
  let (start, stop) := Unicode.firstByteBlock c.toNat
  Unicode.letters.meets start stop || Unicode.decimalDigits.meets start stop ||
    start ≤ '_'.toNat && '_'.toNat < stop

/-- Whether a character is a blank. Newlines are not, and neither are carriage returns. -/
def isBlank (c : Char) : Bool := c == ' ' || c == '\t' || c == '\x0b' || c == '\x0c'

/-! ## Lexemes -/

/-- The meaning of what stands at the head of a text. A fault lies a number of characters after the
head. -/
inductive Meaning where
  | token (kind : Token.Kind)
  | skipped
  | fault (fault : LexicalFault) (offset : Nat)
  deriving DecidableEq

/-- What stands at the head of a text. It takes the first character and `more` others. -/
structure Lexeme where
  meaning : Meaning
  more : Nat
  deriving DecidableEq

namespace Lexeme

/-- A symbol of one character. -/
def sign (s : Symbol) : Lexeme := ⟨.token (.symbol s), 0⟩

/-- A symbol that is another one when an equals sign follows it. -/
def signOrEquals (alone withEquals : Symbol) : List Char → Lexeme
  | '=' :: _ => ⟨.token (.symbol withEquals), 1⟩
  | _ => sign alone

/-- A run of blanks. -/
def blanks (rest : List Char) : Lexeme := ⟨.skipped, (rest.takeWhile isBlank).length⟩

/-- The kind of a word in front of a text. A reserved word is only known as such where the first
byte behind it shows that the word is over, and is a name like any other where it does not. -/
def wordKind (word rest : List Char) : Token.Kind :=
  if rest.head?.any sharesFirstByte then .identifier (String.ofList word) else .ofWord word

/-- A word. -/
def word (c : Char) (rest : List Char) : Lexeme :=
  let more := rest.takeWhile continuesWord
  ⟨.token (wordKind (c :: more) (rest.dropWhile continuesWord)), more.length⟩

/-- A number. -/
def number (text : List Char) : Lexeme :=
  let (n, rest) := readNumber text
  match n.outcome rest with
  | .ok value => ⟨.token (.literal value), n.chars.length - 1⟩
  | .error (fault, offset) => ⟨.fault fault offset, n.chars.length - 1⟩

/-- A string. One that is not right takes the rest of the text. -/
def string (rest : List Char) : Lexeme :=
  match readString rest with
  | .closed value taken => ⟨.token (.literal (.string (String.ofList value))), taken⟩
  | .badEscape offset => ⟨.fault .invalidEscape (offset + 1), rest.length⟩
  | .unclosed => ⟨.fault .unclosedString 0, rest.length⟩

/-- A character. One that is not right takes its opening quote alone. -/
def character (rest : List Char) : Lexeme :=
  match readCharacter rest with
  | .ok (value, length) => ⟨.token (.literal (.character value)), length - 1⟩
  | .error (fault, offset) => ⟨.fault fault offset, 0⟩

/-- A comment, or the slash. A block comment that is not closed takes the rest of the text. -/
def slash (rest : List Char) : Lexeme :=
  match rest with
  | '/' :: rest => ⟨.skipped, (rest.takeWhile (· != '\n')).length + 1⟩
  | '*' :: inside =>
      match closeComment? 0 inside with
      | some n => ⟨.skipped, n + 1⟩
      | none => ⟨.fault .unclosedComment 0, inside.length + 1⟩
  | _ => sign .slash

/-- The sign for unequal. Its first character means nothing alone. -/
def bang : List Char → Lexeme
  | '=' :: _ => ⟨.token (.symbol .bangEquals), 1⟩
  | _ => ⟨.fault .loneBang 1, 0⟩

/-- What stands at the head of the text `c :: rest`. -/
def of (c : Char) (rest : List Char) : Lexeme :=
  if startsWord c then word c rest
  else if c.isDigit then number (c :: rest)
  else if isBlank c then blanks rest
  else
    match c with
    | '\n' => sign .newline
    | '\x22' => string rest
    | '\x27' => character rest
    | '.' => if rest.head?.any Char.isDigit then number ('.' :: rest) else sign .period
    | '/' => slash rest
    | '!' => bang rest
    | '=' => signOrEquals .equals .doubleEquals rest
    | '<' => signOrEquals .lesser .lesserOrEqual rest
    | '>' => signOrEquals .greater .greaterOrEqual rest
    | '(' => sign .openParenthesis
    | ')' => sign .closeParenthesis
    | '[' => sign .openBracket
    | ']' => sign .closeBracket
    | '+' => sign .plus
    | '-' => sign .minus
    | '*' => sign .asterisk
    | '^' => sign .caret
    | '%' => sign .percent
    | '&' => sign .ampersand
    | ',' => sign .comma
    | ':' => sign .colon
    | c => ⟨.fault (.unexpectedCharacter c) 0, 0⟩

end Lexeme

end Bucket.Lexer
