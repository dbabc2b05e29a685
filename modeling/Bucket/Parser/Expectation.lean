/-
# What a parser expects

The constructs that a parser can ask for, with the words for them in messages.
-/
import Bucket.Token.Basic

namespace Bucket.Parser

/-- What must stand where another token was found. -/
inductive Expectation where
  | declarationOrEndOfFile
  | declarationOrEnd
  | className
  | methodName
  | argumentName
  | expression
  | lineEnd
  | kind (kind : Token.Kind)
  deriving DecidableEq

namespace Expectation

/-- A keyword is expected. -/
def keyword (k : Keyword) : Expectation := kind (.keyword k)

/-- A symbol is expected. -/
def symbol (s : Symbol) : Expectation := kind (.symbol s)

/-- The words for what is expected. -/
def text : Expectation → String
  | declarationOrEndOfFile => "global statement, newline or end of file"
  | declarationOrEnd => "global statement or 'end'"
  | className => "class name"
  | methodName => "method name"
  | argumentName => "argument name"
  | expression => "expression"
  | lineEnd => "newline or end of file"
  | kind k => k.describe

end Expectation

end Bucket.Parser
