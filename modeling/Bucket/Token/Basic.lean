/-
# Tokens

The words of the language. A token is a kind of word and the stretch of text where it stands.
-/
import Bucket.Source.Position
import Bucket.Token.Keyword
import Bucket.Token.Literal

namespace Bucket

/-! ## Kinds of tokens -/

/-- What a token is, apart from where it stands. -/
inductive Token.Kind where
  | identifier (name : String)
  | keyword (keyword : Keyword)
  | symbol (symbol : Symbol)
  | literal (value : Literal)
  | empty
  deriving DecidableEq

namespace Token.Kind

instance : Inhabited Kind := ⟨empty⟩

/-- The kind of a word: a keyword, a truth value, or a name. -/
def ofWord (word : List Char) : Kind :=
  let text := String.ofList word
  match Keyword.ofText? text with
  | some k => keyword k
  | none =>
      match Literal.ofText? text with
      | some b => literal (.boolean b)
      | none => identifier text

/-- Whether this is the end of the file. -/
def isEndOfFile : Kind → Bool
  | symbol .endOfFile => true
  | _ => false

/-- How a token is written in a program. The end of the file and the empty token take no text. -/
def spelling : Kind → List Char
  | identifier name => name.toList
  | keyword k => k.text.toList
  | symbol .newline => ['\n']
  | symbol .endOfFile => []
  | symbol s => s.text.toList
  | literal v => v.spelling
  | empty => []

/-- How a token stands in a list of tokens. -/
def dump : Kind → String
  | identifier name => "<" ++ name ++ ">"
  | keyword k => "<" ++ k.text ++ ">"
  | symbol s => "<" ++ s.text ++ ">"
  | literal v => v.dump
  | empty => "<empty>"

/-- What a token is called in a message. -/
def describe : Kind → String
  | identifier name => "identifier '" ++ name ++ "'"
  | keyword k => "keyword '" ++ k.text ++ "'"
  | symbol .newline => "newline"
  | symbol .endOfFile => "end of file"
  | symbol s => "symbol '" ++ s.text ++ "'"
  | literal v => v.describe
  | empty => "nothing"

/-- Whether two tokens are the same word with the same value. -/
def equals : Kind → Kind → Bool
  | literal a, literal b => a.equals b
  | a, b => a == b

end Token.Kind

/-! ## Tokens in a text -/

/-- A word in a text. -/
structure Token where
  kind : Token.Kind
  span : Span
  deriving DecidableEq

namespace Token

/-- The token that stands for none having been read: it is empty, at the beginning of the text. -/
def none : Token := ⟨.empty, .first⟩

instance : Inhabited Token := ⟨none⟩

/-- The end of the file, at a position. -/
def endOfFile (p : Position) : Token := ⟨.symbol .endOfFile, .point p⟩

/-- Whether this is the end of the file. -/
def isEndOfFile (t : Token) : Bool := t.kind.isEndOfFile

/-- Whether two tokens are the same word with the same value at the same place. -/
def equals (a b : Token) : Bool := a.kind.equals b.kind && a.span == b.span

end Token

end Bucket
