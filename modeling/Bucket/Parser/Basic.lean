/-
# Parsing

A parser reads the tokens of a source one at a time, and only asks for the next one when it has found
a place for the one before. So of a fault in the words and a fault in their order the one that comes
first is found.
-/
import Bucket.Lexer.Basic
import Bucket.Parser.Step

namespace Bucket

namespace Parser

/-- Reads the rest of a program from a state. -/
def State.run (s : State) (c : Cursor) : Except Diagnostic Class :=
  match _h : c.pull with
  | (.error d, _) => .error d
  | (.ok t, next) =>
      if t.isEndOfFile then s.finish t
      else
        match s.step t with
        | some s' => s'.run next
        | none => .error (s.diagnostic t)
termination_by c.rest.length
decreasing_by exact Cursor.length_pull_lt _h ‹_›

/-- Reads the rest of a program from tokens that are followed by the end of the file. -/
def State.runTokens (s : State) (fileEnd : Position) : List Token → Except Diagnostic Class
  | [] => s.finish (.endOfFile fileEnd)
  | t :: rest =>
      match s.step t with
      | some s' => s'.runTokens fileEnd rest
      | none => .error (s.diagnostic t)

end Parser

/-- The module that a source holds. -/
def Source.parse (s : Source) : Except Diagnostic Class := Parser.State.initial.run s.cursor

end Bucket
