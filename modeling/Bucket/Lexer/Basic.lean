/-
# Reading tokens

A lexer reads the tokens of a text one after the other and shows the one it read last. When it meets
a fault it keeps showing that token, but it has moved on, and the next reading starts behind the
fault. At the end of the text it goes on to read the end of the file.
-/
import Bucket.Lexer.Lexeme
import Bucket.Source.Basic

namespace Bucket

/-! ## One token -/

namespace Cursor

/-- What stands under the cursor, if the text goes on there. -/
def lexeme? (c : Cursor) : Option Lexer.Lexeme :=
  match c.rest with
  | [] => none
  | head :: rest => some (.of head rest)

/-- The cursor behind the lexeme under it. -/
def pass (c : Cursor) (l : Lexer.Lexeme) : Cursor := c.skip (l.more + 1)

/-- Passing a lexeme takes at least one character. -/
theorem length_pass_lt {c : Cursor} {l : Lexer.Lexeme} (h : c.lexeme? = some l) :
    (c.pass l).rest.length < c.rest.length := by
  rw [pass, length_skip]
  cases hr : c.rest with
  | nil => simp [lexeme?, hr] at h
  | cons head rest => simp only [List.length_cons]; omega

/-- Reads the next token, or the fault that stands before it, and moves past it. -/
def pull (c : Cursor) : Except Diagnostic Token × Cursor :=
  match _h : c.lexeme? with
  | none => (.ok (.endOfFile c.position), c)
  | some l =>
      match l.meaning with
      | .token kind => (.ok ⟨kind, ⟨c.position, (c.pass l).position⟩⟩, c.pass l)
      | .skipped => (c.pass l).pull
      | .fault fault offset => (.error (.lexical fault (c.skip offset).position), c.pass l)
termination_by c.rest.length
decreasing_by exact length_pass_lt _h

/-- Reading a token never goes back, and takes at least one character unless it gives the end of the
file. -/
theorem length_pull (c : Cursor) :
    c.pull.2.rest.length < c.rest.length ∨
      c.pull.2.rest.length ≤ c.rest.length ∧ ∃ p, c.pull.1 = .ok (.endOfFile p) := by
  fun_induction pull c with
  | case1 c => exact .inr ⟨Nat.le_refl _, c.position, rfl⟩
  | case2 c l h => exact .inl (length_pass_lt h)
  | case3 c l h _ ih =>
      have := length_pass_lt h
      rcases ih with ih | ⟨ih, -⟩ <;> exact .inl (by omega)
  | case4 c l h => exact .inl (length_pass_lt h)

/-- A token that is not the end of the file takes at least one character. -/
theorem length_pull_lt {c next : Cursor} {t : Token} (h : c.pull = (.ok t, next))
    (ht : ¬ t.isEndOfFile) : next.rest.length < c.rest.length := by
  have hl := length_pull c
  rw [h] at hl
  rcases hl with hl | ⟨-, p, hp⟩
  · exact hl
  · injection hp with hp
    exact absurd (hp ▸ rfl) ht

end Cursor

/-! ## Lexers -/

/-- A lexer: the text still to be read, and the token that was read last. -/
structure Lexer where
  cursor : Cursor
  current : Token
  deriving DecidableEq

namespace Lexer

/-- Reads one token, and shows it if there was no fault. -/
def next (l : Lexer) : Except Diagnostic Unit × Lexer :=
  match l.cursor.pull with
  | (.ok t, c) => (.ok (), ⟨c, t⟩)
  | (.error d, c) => (.error d, ⟨c, l.current⟩)

/-- Reads one token, and gives back the one that was shown before if there was no fault. -/
def advance (l : Lexer) : Except Diagnostic Token × Lexer :=
  match l.cursor.pull with
  | (.ok t, c) => (.ok l.current, ⟨c, t⟩)
  | (.error d, c) => (.error d, ⟨c, l.current⟩)

/-- A lexer that shows the first token of a source. -/
def ofSource (s : Source) : Except Diagnostic Lexer :=
  match s.cursor.pull with
  | (.ok t, c) => .ok ⟨c, t⟩
  | (.error d, _) => .error d

/-- Whether the lexer shows the end of the file. -/
def atEnd (l : Lexer) : Bool := l.current.isEndOfFile

end Lexer

/-! ## All tokens -/

/-- What reading a text to its end gives: the tokens before the end of the file or the first fault,
and which of the two there is. -/
structure Tokens where
  tokens : List Token
  stop : Except Diagnostic Position

namespace Tokens

/-- Puts a token in front of others. -/
def cons (t : Token) (ts : Tokens) : Tokens := ⟨t :: ts.tokens, ts.stop⟩

/-- The tokens if there was no fault. -/
def toExcept (ts : Tokens) : Except Diagnostic (List Token) :=
  match ts.stop with
  | .ok _ => .ok ts.tokens
  | .error d => .error d

end Tokens

/-- All tokens that are left to read. -/
def Cursor.tokens (c : Cursor) : Tokens :=
  match _h : c.pull with
  | (.error d, _) => ⟨[], .error d⟩
  | (.ok t, next) => if t.isEndOfFile then ⟨[], .ok t.span.start⟩ else next.tokens.cons t
termination_by c.rest.length
decreasing_by exact Cursor.length_pull_lt _h ‹_›

/-- All tokens of a source. -/
def Source.tokens (s : Source) : Tokens := s.cursor.tokens

end Bucket
