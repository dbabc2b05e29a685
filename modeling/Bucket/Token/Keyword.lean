/-
# Keywords and symbols

The words and signs with a meaning of their own. A newline is a symbol, since it ends statements,
and so is the end of the file.
-/

namespace Bucket

/-! ## Keywords -/

/-- A word that cannot be a name. -/
inductive Keyword where
  | endKw
  | ifKw
  | elifKw
  | elseKw
  | doKw
  | forKw
  | breakKw
  | cycleKw
  | retKw
  | andKw
  | orKw
  | notKw
  | classKw
  | methodKw
  deriving DecidableEq

namespace Keyword

/-- How a keyword is written. -/
def text : Keyword → String
  | endKw => "end"
  | ifKw => "if"
  | elifKw => "elif"
  | elseKw => "else"
  | doKw => "do"
  | forKw => "for"
  | breakKw => "break"
  | cycleKw => "cycle"
  | retKw => "ret"
  | andKw => "and"
  | orKw => "or"
  | notKw => "not"
  | classKw => "class"
  | methodKw => "method"

/-- The words that are read as keywords. -/
def words : List (String × Keyword) :=
  [("end", endKw), ("if", ifKw), ("elif", elifKw), ("else", elseKw), ("do", doKw), ("for", forKw),
    ("break", breakKw), ("cycle", cycleKw), ("ret", retKw), ("and", andKw), ("or", orKw),
    ("not", notKw), ("class", classKw), ("method", methodKw)]

/-- The keyword that a word is, if it is one. -/
def ofText? (word : String) : Option Keyword := words.lookup word

/-- A word is read as the keyword that is written so. -/
theorem text_of_mem_words : ∀ entry ∈ words, entry.2.text = entry.1 := by decide

/-- Every keyword is found by its text. -/
theorem ofText?_text (k : Keyword) : ofText? k.text = some k := by
  cases k <;> decide

/-- What is found for a word is written as that word. -/
theorem text_of_ofText? {word : String} {k : Keyword} (h : ofText? word = some k) :
    k.text = word := by
  obtain ⟨front, back, hwords, -⟩ := List.lookup_eq_some_iff.1 h
  have hmem : (word, k) ∈ words := by
    rw [hwords]
    exact List.mem_append_right _ List.mem_cons_self
  exact text_of_mem_words _ hmem

end Keyword

/-! ## Symbols -/

/-- A sign, a newline, or the end of the file. -/
inductive Symbol where
  | openParenthesis
  | closeParenthesis
  | openBracket
  | closeBracket
  | plus
  | minus
  | asterisk
  | slash
  | caret
  | percent
  | ampersand
  | equals
  | doubleEquals
  | bangEquals
  | greater
  | greaterOrEqual
  | lesser
  | lesserOrEqual
  | period
  | comma
  | colon
  | newline
  | endOfFile
  deriving DecidableEq

namespace Symbol

/-- The name of a symbol: how it is written, where it can be seen. -/
def text : Symbol → String
  | openParenthesis => "("
  | closeParenthesis => ")"
  | openBracket => "["
  | closeBracket => "]"
  | plus => "+"
  | minus => "-"
  | asterisk => "*"
  | slash => "/"
  | caret => "^"
  | percent => "%"
  | ampersand => "&"
  | equals => "="
  | doubleEquals => "=="
  | bangEquals => "!="
  | greater => ">"
  | greaterOrEqual => ">="
  | lesser => "<"
  | lesserOrEqual => "<="
  | period => "."
  | comma => ","
  | colon => ":"
  | newline => "newline"
  | endOfFile => "end-of-file"

end Symbol

end Bucket
