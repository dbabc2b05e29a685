/-
# Escape sequences

String and character literals write some characters as a backslash and one more character. Reading
accepts ten such escapes. Writing uses them for the control characters that have one, for the
backslash, and for the quote that delimits the literal. The main fact is that each written escape
denotes the character it was written for (`denoted_of_escape?`).
-/

namespace Bucket.Text

/-! ## Reading -/

/-- The character that an escape denotes, by the character after its backslash. -/
def denoted? : Char → Option Char
  | 'a' => some '\x07'
  | 'b' => some '\x08'
  | 'f' => some '\x0c'
  | 'n' => some '\n'
  | 'r' => some '\r'
  | 't' => some '\t'
  | 'v' => some '\x0b'
  | '\x5c' => some '\x5c'
  | '\x27' => some '\x27'
  | '\x22' => some '\x22'
  | _ => none

/-! ## Writing -/

/-- The character to write after a backslash for a character that a literal in quotes `quote` does
not hold as it is. -/
def escape? (quote : Char) : Char → Option Char
  | '\x07' => some 'a'
  | '\x08' => some 'b'
  | '\x0c' => some 'f'
  | '\n' => some 'n'
  | '\r' => some 'r'
  | '\t' => some 't'
  | '\x0b' => some 'v'
  | '\x5c' => some '\x5c'
  | c => if c = quote then some c else none

/-- How one character is written inside a literal in quotes `quote`. -/
def written (quote c : Char) : List Char :=
  match escape? quote c with
  | some e => ['\x5c', e]
  | none => [c]

/-- A literal for a text: its characters as they are written, between two quotes. -/
def quoted (quote : Char) (text : List Char) : List Char :=
  quote :: (text.flatMap (written quote) ++ [quote])

/-- A written escape denotes the character that it stands for. -/
theorem denoted_of_escape? {quote c e : Char} (hq : quote = '\x22' ∨ quote = '\x27')
    (h : escape? quote c = some e) : denoted? e = some c := by
  unfold escape? at h
  split at h
  case h_9 =>
    split at h
    · rename_i hc
      injection h with h
      subst h hc
      rcases hq with rfl | rfl <;> rfl
    · simp at h
  all_goals injection h with h; subst h; rfl

/-- A character that is written as it is is neither a backslash nor the quote. -/
theorem ne_of_escape?_eq_none {quote c : Char} (h : escape? quote c = none) :
    c ≠ '\x5c' ∧ c ≠ quote := by
  unfold escape? at h
  split at h
  case h_9 hb =>
    split at h
    · simp at h
    · rename_i hc
      exact ⟨hb, hc⟩
  all_goals simp at h

end Bucket.Text
