/-
# Strings and characters

The inside of a literal in quotes is made of plain characters and escapes. A string holds any number
of them, newlines included, and a character literal holds one.
-/
import Bucket.Diagnostic
import Bucket.Text.Escape

namespace Bucket.Lexer

/-! ## Strings -/

/-- The inside of a string: its value and how many characters were read, the closing quote included,
or a fault and, for an escape that means nothing, how far in that stands. -/
inductive StringReading where
  | closed (value : List Char) (taken : Nat)
  | badEscape (offset : Nat)
  | unclosed
  deriving DecidableEq

/-- Puts a character in front of a reading, which took `n` characters to write. -/
def StringReading.push (d : Char) (n : Nat) : StringReading → StringReading
  | closed value taken => closed (d :: value) (taken + n)
  | badEscape offset => badEscape (offset + n)
  | unclosed => unclosed

/-- Reads the inside of a string up to its closing quote. -/
def readString : List Char → StringReading
  | [] => .unclosed
  | c :: rest =>
      if c = '\x22' then .closed [] 1
      else if c = '\x5c' then
        match rest with
        | [] => .badEscape 0
        | e :: rest =>
            match Text.denoted? e with
            | some d => (readString rest).push d 2
            | none => .badEscape 0
      else (readString rest).push c 1

/-- A string that is closed took no more characters than there were, and at least the quote. -/
theorem readString_taken {text value : List Char} {n : Nat}
    (h : readString text = .closed value n) : 0 < n ∧ n ≤ text.length := by
  fun_induction readString text generalizing value n with
  | case1 => simp at h
  | case2 => simp_all; omega
  | case3 => simp at h
  | case4 e rest d hd _ ih =>
      cases hr : readString rest <;> simp [hr, StringReading.push] at h
      have := ih hr
      simp
      omega
  | case5 => simp at h
  | case6 c rest _ _ ih =>
      cases hr : readString rest <;> simp [hr, StringReading.push] at h
      have := ih hr
      simp
      omega

/-! ## Characters -/

/-- The closing quote of a character literal, after `n` characters that mean `value`. -/
def closeCharacter (value : Char) (n : Nat) : List Char → Except (LexicalFault × Nat) (Char × Nat)
  | [] => .error (.unclosedCharacter, 0)
  | c :: _ => if c = '\x27' then .ok (value, n + 1) else .error (.longCharacter, n)

/-- Reads a character literal after its opening quote: the character and how many characters the
literal has, or a fault and how far from the opening quote that lies. -/
def readCharacter : List Char → Except (LexicalFault × Nat) (Char × Nat)
  | [] => .error (.unclosedCharacter, 0)
  | c :: rest =>
      if c = '\x27' then .error (.emptyCharacter, 1)
      else if c = '\x5c' then
        match rest with
        | [] => .error (.invalidEscape, 1)
        | e :: rest =>
            match Text.denoted? e with
            | some d => closeCharacter d 3 rest
            | none => .error (.invalidEscape, 1)
      else closeCharacter c 2 rest

end Bucket.Lexer
