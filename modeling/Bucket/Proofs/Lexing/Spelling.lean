/-
# Tokens are read back

The spelling of a token, in front of a character that does not go on with it, is read as that token
(`Token.Kind.of_spelling`). This holds for the tokens that a text can hold: names that are words and
reals that are finite and not negative.
-/
import Bucket.Proofs.Lexing.Number

namespace Bucket

/-! ## Quotes -/

namespace Lexer

/-- A string is closed by its quote. -/
theorem readString_quote (rest : List Char) : readString ('\x22' :: rest) = .closed [] 1 := by
  cases rest <;> simp [readString]

/-- A plain character in a string stands for itself. -/
theorem readString_plain {c : Char} (hbackslash : c ≠ '\x5c') (hquote : c ≠ '\x22')
    (rest : List Char) : readString (c :: rest) = (readString rest).push c 1 := by
  cases rest <;> simp [readString, hbackslash, hquote]

/-- An escape in a string stands for what it denotes. -/
theorem readString_escape {e d : Char} (h : Text.denoted? e = some d) (rest : List Char) :
    readString ('\x5c' :: e :: rest) = (readString rest).push d 2 := by
  simp [readString, h]

/-- The written characters of a string are read back. -/
theorem readString_written (text rest : List Char) :
    readString (text.flatMap (Text.written '\x22') ++ '\x22' :: rest) =
      .closed text ((text.flatMap (Text.written '\x22')).length + 1) := by
  induction text with
  | nil => exact readString_quote rest
  | cons c text ih =>
      rw [List.flatMap_cons, List.append_assoc, List.length_append]
      cases he : Text.escape? '\x22' c with
      | some e =>
          have hwritten : Text.written '\x22' c = ['\x5c', e] := by rw [Text.written, he]
          have hdenoted := Text.denoted_of_escape? (.inl rfl) he
          rw [hwritten, List.cons_append, List.cons_append, List.nil_append,
            readString_escape hdenoted, ih, StringReading.push, List.length_cons,
            List.length_singleton, Nat.add_comm, Nat.add_assoc]
      | none =>
          have hwritten : Text.written '\x22' c = [c] := by rw [Text.written, he]
          obtain ⟨hbackslash, hquote⟩ := Text.ne_of_escape?_eq_none he
          rw [hwritten, List.singleton_append, readString_plain hbackslash hquote, ih,
            StringReading.push, List.length_singleton, Nat.add_comm, Nat.add_assoc]

/-- A written character is read back. -/
theorem readCharacter_written (c : Char) (rest : List Char) :
    readCharacter (Text.written '\x27' c ++ '\x27' :: rest) =
      .ok (c, (Text.written '\x27' c).length + 2) := by
  cases he : Text.escape? '\x27' c with
  | some e =>
      have hwritten : Text.written '\x27' c = ['\x5c', e] := by rw [Text.written, he]
      have hdenoted := Text.denoted_of_escape? (.inr rfl) he
      simp [hwritten, readCharacter, hdenoted, closeCharacter]
  | none =>
      have hwritten : Text.written '\x27' c = [c] := by rw [Text.written, he]
      obtain ⟨hbackslash, hquote⟩ := Text.ne_of_escape?_eq_none he
      simp [hwritten, readCharacter, hbackslash, hquote, closeCharacter]

/-! ## Numbers -/

/-- A number that means something is read up to where it is over. -/
theorem Lexeme.of_number {n : Number} (hn : n.WellFormed) (hwhole : n.whole ≠ []) {value : Literal}
    {rest : List Char} (hrest : rest.head?.all endsNumber) (hvalue : n.outcome rest = .ok value) :
    ∃ c more, n.chars = c :: more ∧
      Lexeme.of c (more ++ rest) = ⟨.token (.literal value), more.length⟩ := by
  obtain ⟨c, whole, hc⟩ := List.exists_cons_of_ne_nil hwhole
  have hdigit : c.isDigit := hn.whole c (by simp [hc])
  have hlt : c.toNat < 0x41 := by
    have : c.toNat ≤ 57 := (Bool.and_eq_true_iff.1 hdigit).2 |> of_decide_eq_true
    omega
  have hchars : n.chars = c ::
      (whole ++ (Number.fractionChars n.fraction ++ Number.exponentChars n.exponent)) := by
    rw [Number.chars, hc, List.cons_append]
  refine ⟨c, _, hchars, ?_⟩
  have hread := readNumber_chars hn (n.any_goesOn_of_endsNumber hrest)
  rw [hchars, List.cons_append] at hread
  unfold Lexeme.of
  rw [if_neg (by simp [startsWord_of_lt hlt]), if_pos hdigit, Lexeme.number, hread]
  simp only [hvalue, hchars, List.length_cons, Nat.add_sub_cancel]

end Lexer

/-! ## Tokens -/

namespace Token.Kind

open Lexer

/-- Whether a token is one that a text can hold. -/
def isWritable : Kind → Bool
  | identifier n => isWord n.toList && ofWord n.toList == identifier n
  | keyword _ => true
  | symbol s => s != .endOfFile
  | literal (.real x) => x.isFinite && !x.isNegative
  | literal _ => true
  | empty => false

/-- Whether a token is over where the next character is a given one. -/
def endsBefore (next : Option Char) : Kind → Bool
  | identifier _ | keyword _ | literal (.boolean _) => !next.any sharesFirstByte
  | literal (.integer _) | literal (.real _) => next.all endsNumber
  | symbol .period => !next.any Char.isDigit
  | symbol .equals | symbol .lesser | symbol .greater => next != some '='
  | symbol .slash => next != some '/' && next != some '*'
  | _ => true

/-- Keywords are words, and mean themselves. -/
theorem ofWord_keyword (k : Keyword) :
    isWord k.text.toList = true ∧ ofWord k.text.toList = keyword k := by
  cases k <;> decide +kernel

/-- The words for truth values are words, and mean them. -/
theorem ofWord_boolean (b : Bool) : isWord (Literal.booleanText b).toList = true ∧
    ofWord (Literal.booleanText b).toList = literal (.boolean b) := by
  cases b <;> decide +kernel

variable {rest : List Char}

/-- A word that means a token is read as that token. -/
theorem of_spelling_word {k : Kind} {word : List Char} (hword : isWord word = true)
    (hk : ofWord word = k) (hrest : (!rest.head?.any sharesFirstByte) = true) :
    ∃ c more, word = c :: more ∧
      Lexeme.of c (more ++ rest) = ⟨.token k, more.length⟩ := by
  cases word with
  | nil => simp [isWord] at hword
  | cons c more =>
      refine ⟨c, more, rfl, ?_⟩
      rw [Lexeme.of_word hword (by simpa using hrest), hk]

/-- A symbol is read as that symbol. -/
theorem of_spelling_symbol {s : Symbol} (hs : s ≠ .endOfFile)
    (hrest : (symbol s).endsBefore rest.head? = true) :
    ∃ c more, (symbol s).spelling = c :: more ∧
      Lexeme.of c (more ++ rest) = ⟨.token (symbol s), more.length⟩ := by
  cases s with
  | endOfFile => exact absurd rfl hs
  | period =>
      have hover : (!rest.head?.any Char.isDigit) = true := hrest
      have hdigit : rest.head?.any Char.isDigit = false := by simpa using hover
      refine ⟨'.', [], rfl, ?_⟩
      show (if rest.head?.any Char.isDigit then _ else Lexeme.sign .period) = _
      rw [hdigit]
      rfl
  | equals | lesser | greater =>
      refine ⟨_, [], rfl, ?_⟩
      cases rest with
      | nil => rfl
      | cons c rest =>
          have hover : (some c != some '=') = true := hrest
          have hc : c ≠ '=' := by simpa using hover
          show Lexeme.signOrEquals _ _ (c :: rest) = _
          unfold Lexeme.signOrEquals
          split
          · rename_i h
            exact absurd (List.cons.inj h).1 hc
          · rfl
  | slash =>
      refine ⟨'/', [], rfl, ?_⟩
      cases rest with
      | nil => rfl
      | cons c rest =>
          have hover : (some c != some '/' && some c != some '*') = true := hrest
          have hc : c ≠ '/' ∧ c ≠ '*' := by simpa using hover
          show Lexeme.slash (c :: rest) = _
          unfold Lexeme.slash
          split
          · rename_i h
            exact absurd (List.cons.inj h).1 hc.1
          · rename_i h
            exact absurd (List.cons.inj h).1 hc.2
          · rfl
  | _ => exact ⟨_, _, rfl, rfl⟩

/-- A literal is read as that literal. -/
theorem of_spelling_literal {v : Literal} (hv : (literal v).isWritable = true)
    (hrest : (literal v).endsBefore rest.head? = true) :
    ∃ c more, v.spelling = c :: more ∧
      Lexeme.of c (more ++ rest) = ⟨.token (literal v), more.length⟩ := by
  have hlast : rest.head?.all endsNumber = true → rest.head?.any continuesNumber = false := by
    intro h
    cases rest <;> simp_all [endsNumber]
  cases v with
  | integer n =>
      obtain ⟨m, hm, hchars, hwhole, hreal, hexponent, hvalue⟩ := exists_number_of_integer n
      have hlt : n.toNat < UInt64.size := n.toNat_lt
      have houtcome : m.outcome rest = .ok (.integer n) := by
        simp [Number.outcome, hexponent, hlast hrest, hreal, hvalue, hlt]
      rw [Literal.spelling, ← hchars]
      exact Lexeme.of_number hm hwhole hrest houtcome
  | real x =>
      obtain ⟨hfinite, hsign⟩ := Bool.and_eq_true_iff.1 hv
      obtain ⟨m, hm, hchars, hwhole, hreal, hvalue⟩ :=
        exists_number_of_real hfinite (by simpa using hsign)
      have hexponent : m.exponent.any (·.digits.isEmpty) = false := by
        cases he : m.exponent with
        | none => rfl
        | some e => simpa using (hm.exponent e he).digits_ne_nil
      have houtcome : m.outcome rest = .ok (.real x) := by
        simp [Number.outcome, hexponent, hlast hrest, hreal, hvalue, hfinite]
      rw [Literal.spelling, ← hchars]
      exact Lexeme.of_number hm hwhole hrest houtcome
  | string s =>
      refine ⟨'\x22', _, rfl, ?_⟩
      show Lexeme.string _ = _
      rw [Lexeme.string, List.append_assoc, List.singleton_append, readString_written]
      simp
  | character c =>
      refine ⟨'\x27', _, rfl, ?_⟩
      show Lexeme.character _ = _
      rw [Lexeme.character, List.append_assoc, List.singleton_append, List.flatMap_singleton,
        readCharacter_written]
      simp
  | boolean b =>
      obtain ⟨hword, hk⟩ := ofWord_boolean b
      exact of_spelling_word hword hk hrest

/-- The spelling of a token is read as that token. -/
theorem of_spelling {k : Kind} (hk : k.isWritable = true)
    (hrest : k.endsBefore rest.head? = true) :
    ∃ c more, k.spelling = c :: more ∧
      Lexeme.of c (more ++ rest) = ⟨.token k, more.length⟩ := by
  cases k with
  | identifier n =>
      obtain ⟨hword, hkind⟩ := Bool.and_eq_true_iff.1 hk
      exact of_spelling_word hword (beq_iff_eq.1 hkind) hrest
  | keyword k =>
      obtain ⟨hword, hkind⟩ := ofWord_keyword k
      exact of_spelling_word hword hkind hrest
  | symbol s => exact of_spelling_symbol (by simpa [isWritable] using hk) hrest
  | literal v => exact of_spelling_literal hk hrest
  | empty => simp [isWritable] at hk

end Token.Kind

end Bucket
