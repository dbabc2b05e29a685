/-
# Text in quotes

What may stand in quotes is told here apart from how it is read. It is made of items, each of which is a
character as it is or one of ten escapes, and stands for the characters that these denote
(`Lexer.Items`). A string goes up to the first quote behind some items, and a character literal holds
one item. What a cursor reads behind an opening quote is what this language says, and a fault lies where
the first item is not right (`Cursor.pull_quoted`).
-/
import Bucket.Proofs.Lexing.Tokens

namespace Bucket

/-! ## Escapes -/

namespace Text

/-- The ten escapes: what is written behind a backslash, and what the two denote. -/
def escapes : List (Char × Char) :=
  [('a', '\x07'), ('b', '\x08'), ('f', '\x0c'), ('n', '\x0a'), ('r', '\x0d'), ('t', '\x09'),
    ('v', '\x0b'), ('\x5c', '\x5c'), ('\x27', '\x27'), ('\x22', '\x22')]

/-- What an escape denotes is written in the table. -/
theorem mem_escapes_iff {e d : Char} : (e, d) ∈ escapes ↔ denoted? e = some d := by
  constructor
  · intro h
    simp only [escapes, List.mem_cons, Prod.mk.injEq, List.not_mem_nil, or_false] at h
    rcases h with h | h | h | h | h | h | h | h | h | h <;> obtain ⟨rfl, rfl⟩ := h <;> rfl
  · intro h
    unfold denoted? at h
    split at h <;> cases h <;> decide

end Text

namespace Lexer

/-! ## Items -/

/-- An item of a literal in quotes `quote`, and the character that it stands for: one that is neither
the quote nor a backslash, or an escape. -/
inductive Item (quote : Char) : List Char → Char → Prop where
  | plain {c : Char} : c ≠ quote → c ≠ '\x5c' → Item quote [c] c
  | escape {e d : Char} : (e, d) ∈ Text.escapes → Item quote ['\x5c', e] d

/-- Items one behind the other, and the characters that they stand for. -/
inductive Items (quote : Char) : List Char → List Char → Prop where
  | nil : Items quote [] []
  | cons {item inside value : List Char} {d : Char} :
      Item quote item d → Items quote inside value → Items quote (item ++ inside) (d :: value)

/-- Whether a backslash in front of a text makes no escape: behind it stands a character that none is
written with, or nothing. -/
def NoEscape (behind : List Char) : Prop := ∀ e ∈ behind.head?, ∀ d, (e, d) ∉ Text.escapes

theorem noEscape_iff {behind : List Char} :
    NoEscape behind ↔ behind = [] ∨ ∃ e rest, behind = e :: rest ∧ Text.denoted? e = none := by
  cases behind with
  | nil => simp [NoEscape]
  | cons e rest => simp [NoEscape, Text.mem_escapes_iff, Option.eq_none_iff_forall_ne_some]

/-- A text begins with an item, or with the quote, or with a backslash that makes no escape. -/
theorem exists_item (quote c : Char) (rest : List Char) :
    c = quote ∨ (c = '\x5c' ∧ NoEscape rest) ∨
      ∃ item d behind, c :: rest = item ++ behind ∧ Item quote item d := by
  by_cases hquote : c = quote
  · exact .inl hquote
  by_cases hbackslash : c = '\x5c'
  · subst hbackslash
    rcases rest with _ | ⟨e, rest⟩
    · exact .inr (.inl ⟨rfl, noEscape_iff.2 (.inl rfl)⟩)
    · cases he : Text.denoted? e with
      | none => exact .inr (.inl ⟨rfl, noEscape_iff.2 (.inr ⟨e, rest, rfl, he⟩)⟩)
      | some d =>
          exact .inr (.inr ⟨['\x5c', e], d, rest, rfl, .escape (Text.mem_escapes_iff.2 he)⟩)
  · exact .inr (.inr ⟨[c], c, rest, rfl, .plain hquote hbackslash⟩)

/-- A text is items up to its end, or up to the quote, or up to a backslash that makes no escape. -/
theorem exists_items (quote : Char) (text : List Char) :
    ∃ inside value behind, text = inside ++ behind ∧ Items quote inside value ∧
      (behind = [] ∨ (∃ after, behind = quote :: after) ∨
        ∃ after, behind = '\x5c' :: after ∧ NoEscape after) := by
  induction hn : text.length using Nat.strong_induction_on generalizing text with
  | _ n ih =>
    subst hn
    rcases text with _ | ⟨c, rest⟩
    · exact ⟨[], [], [], rfl, .nil, .inl rfl⟩
    rcases exists_item quote c rest with rfl | ⟨rfl, hnone⟩ | ⟨item, d, text, htext, hitem⟩
    · exact ⟨[], [], c :: rest, rfl, .nil, .inr (.inl ⟨rest, rfl⟩)⟩
    · exact ⟨[], [], _, rfl, .nil, .inr (.inr ⟨rest, rfl, hnone⟩)⟩
    · -- Every item has characters, so less is left behind it.
      have hlt : text.length < (c :: rest).length := by
        rw [htext, List.length_append]
        cases hitem <;> simp
      obtain ⟨inside, value, behind, rfl, hitems, hbehind⟩ := ih _ hlt text rfl
      refine ⟨item ++ inside, d :: value, behind, ?_, .cons hitem hitems, hbehind⟩
      rw [htext, List.append_assoc]

/-! ## Strings -/

/-- Puts a piece of text in front of a reading, which took `n` characters to write. -/
def StringReading.pushAll (text : List Char) (n : Nat) : StringReading → StringReading
  | closed value taken => closed (text ++ value) (taken + n)
  | badEscape offset => badEscape (offset + n)
  | unclosed => unclosed

/-- An item in a string stands for its character. -/
theorem Item.readString_append {item : List Char} {d : Char} (h : Item '\x22' item d)
    (behind : List Char) : readString (item ++ behind) = (readString behind).push d item.length := by
  cases h with
  | plain hquote hbackslash => exact readString_plain hbackslash hquote behind
  | escape he => exact readString_escape (Text.mem_escapes_iff.1 he) behind

/-- Items in a string stand for their characters. -/
theorem Items.readString_append {inside value : List Char} (h : Items '\x22' inside value)
    (behind : List Char) :
    readString (inside ++ behind) = (readString behind).pushAll value inside.length := by
  induction h with
  | nil => cases hr : readString behind <;> simp [StringReading.pushAll, hr]
  | @cons item inside value d hitem _ ih =>
      rw [List.append_assoc, hitem.readString_append, ih, List.length_append]
      cases readString behind with
      | closed value taken =>
          simp only [StringReading.pushAll, StringReading.push, List.cons_append,
            StringReading.closed.injEq, true_and]
          omega
      | badEscape offset =>
          simp only [StringReading.pushAll, StringReading.push, StringReading.badEscape.injEq]
          omega
      | unclosed => rfl

/-- A backslash that makes no escape is where a string goes wrong. -/
theorem NoEscape.readString {behind : List Char} (h : NoEscape behind) :
    readString ('\x5c' :: behind) = .badEscape 0 := by
  rcases noEscape_iff.1 h with rfl | ⟨e, rest, rfl, he⟩
  · rfl
  · simp [Lexer.readString, he]

/-- What is read where a string begins at a position, by the text behind its opening quote, and where
reading goes on. The first quote behind items closes the string. Where a backslash makes no escape the
fault is at that backslash, and where the text ends behind items it is at the opening quote. Both take
the rest of the text. -/
inductive ReadsString (p : Position) : List Char → Except Diagnostic Token × Cursor → Prop where
  | closed {inside value behind : List Char} :
      Items '\x22' inside value →
      ReadsString p (inside ++ '\x22' :: behind)
        (.ok ⟨.literal (.string (String.ofList value)),
            ⟨p, p.after ('\x22' :: (inside ++ ['\x22']))⟩⟩,
          ⟨p.after ('\x22' :: (inside ++ ['\x22'])), behind⟩)
  | badEscape {inside value behind : List Char} :
      Items '\x22' inside value → NoEscape behind →
      ReadsString p (inside ++ '\x5c' :: behind)
        (.error (.lexical .invalidEscape (p.after ('\x22' :: inside))),
          ⟨p.after ('\x22' :: (inside ++ '\x5c' :: behind)), []⟩)
  | unclosed {inside value : List Char} :
      Items '\x22' inside value →
      ReadsString p inside
        (.error (.lexical .unclosedString p), ⟨p.after ('\x22' :: inside), []⟩)

/-- Behind an opening quote something is read. -/
theorem exists_readsString (p : Position) (rest : List Char) :
    ∃ read, ReadsString p rest read := by
  obtain ⟨inside, value, behind, rfl, hitems, hbehind⟩ := exists_items '\x22' rest
  rcases hbehind with rfl | ⟨after, rfl⟩ | ⟨after, rfl, hnone⟩
  · rw [List.append_nil]
    exact ⟨_, .unclosed hitems⟩
  · exact ⟨_, .closed hitems⟩
  · exact ⟨_, .badEscape hitems hnone⟩

/-! ## Characters -/

/-- An item in a character literal stands for its character, in front of the closing quote. -/
theorem Item.readCharacter_append {item : List Char} {d : Char} (h : Item '\x27' item d)
    (behind : List Char) :
    readCharacter (item ++ behind) = closeCharacter d (item.length + 1) behind := by
  cases h with
  | plain hquote hbackslash => simp [readCharacter, hquote, hbackslash]
  | escape he => simp [readCharacter, Text.mem_escapes_iff.1 he]

/-- A backslash that makes no escape is where a character literal goes wrong. -/
theorem NoEscape.readCharacter {behind : List Char} (h : NoEscape behind) :
    readCharacter ('\x5c' :: behind) = .error (.invalidEscape, 1) := by
  rcases noEscape_iff.1 h with rfl | ⟨e, rest, rfl, he⟩
  · rfl
  · simp [Lexer.readCharacter, he]

/-- What is read where a character literal begins at a position, by the text behind its opening quote,
and where reading goes on. One item and a quote make a character literal. Otherwise the first character
at which this goes wrong tells the fault: a quote in place of an item, a backslash that makes no escape,
anything but a quote behind an item, or the end of the text. A fault takes the opening quote alone. -/
inductive ReadsCharacter (p : Position) : List Char → Except Diagnostic Token × Cursor → Prop where
  | closed {item behind : List Char} {d : Char} :
      Item '\x27' item d →
      ReadsCharacter p (item ++ '\x27' :: behind)
        (.ok ⟨.literal (.character d), ⟨p, p.after ('\x27' :: (item ++ ['\x27']))⟩⟩,
          ⟨p.after ('\x27' :: (item ++ ['\x27'])), behind⟩)
  | empty {behind : List Char} :
      ReadsCharacter p ('\x27' :: behind)
        (.error (.lexical .emptyCharacter (p.advance '\x27')), ⟨p.advance '\x27', '\x27' :: behind⟩)
  | badEscape {behind : List Char} :
      NoEscape behind →
      ReadsCharacter p ('\x5c' :: behind)
        (.error (.lexical .invalidEscape (p.advance '\x27')), ⟨p.advance '\x27', '\x5c' :: behind⟩)
  | long {item behind : List Char} {c d : Char} :
      Item '\x27' item d → c ≠ '\x27' →
      ReadsCharacter p (item ++ c :: behind)
        (.error (.lexical .longCharacter (p.after ('\x27' :: item))),
          ⟨p.advance '\x27', item ++ c :: behind⟩)
  | unclosed :
      ReadsCharacter p [] (.error (.lexical .unclosedCharacter p), ⟨p.advance '\x27', []⟩)
  | unclosedItem {item : List Char} {d : Char} :
      Item '\x27' item d →
      ReadsCharacter p item (.error (.lexical .unclosedCharacter p), ⟨p.advance '\x27', item⟩)

/-- Behind an opening quote something is read. -/
theorem exists_readsCharacter (p : Position) (rest : List Char) :
    ∃ read, ReadsCharacter p rest read := by
  rcases rest with _ | ⟨c, rest⟩
  · exact ⟨_, .unclosed⟩
  rcases exists_item '\x27' c rest with rfl | ⟨rfl, hnone⟩ | ⟨item, d, behind, htext, hitem⟩
  · exact ⟨_, .empty⟩
  · exact ⟨_, .badEscape hnone⟩
  · rw [htext]
    rcases behind with _ | ⟨e, behind⟩
    · rw [List.append_nil]
      exact ⟨_, .unclosedItem hitem⟩
    · by_cases he : e = '\x27'
      · subst he
        exact ⟨_, .closed hitem⟩
      · exact ⟨_, .long hitem he⟩

end Lexer

/-! ## What a cursor reads -/

open Lexer

namespace Cursor

variable {p : Position} {rest : List Char}

/-- A quote begins a string. -/
theorem lexeme?_string (p : Position) (rest : List Char) :
    lexeme? ⟨p, '\x22' :: rest⟩ = some (.string rest) := rfl

/-- A single quote begins a character literal. -/
theorem lexeme?_character (p : Position) (rest : List Char) :
    lexeme? ⟨p, '\x27' :: rest⟩ = some (.character rest) := rfl

/-- Passing an opening quote and what is inside leads behind that. -/
theorem skip_inside (p : Position) (quote : Char) (inside behind : List Char) :
    (Cursor.mk p (quote :: (inside ++ behind))).skip (inside.length + 1) =
      ⟨p.after (quote :: inside), behind⟩ :=
  skip_length p (quote :: inside) behind

/-- Passing both quotes and what is inside leads behind the literal. -/
theorem skip_quoted (p : Position) (quote : Char) (inside behind : List Char) :
    (Cursor.mk p (quote :: (inside ++ quote :: behind))).skip (inside.length + 2) =
      ⟨p.after (quote :: (inside ++ [quote])), behind⟩ := by
  have hskip := skip_inside p quote (inside ++ [quote]) behind
  rwa [List.append_assoc, List.singleton_append, List.length_append, List.length_singleton] at hskip

/-- What the language of strings says is read. -/
theorem pull_of_readsString {read : Except Diagnostic Token × Cursor}
    (h : ReadsString p rest read) : pull ⟨p, '\x22' :: rest⟩ = read := by
  -- A string that goes wrong takes all of the text.
  have hall : (Cursor.mk p ('\x22' :: rest)).skip (rest.length + 1) =
      ⟨p.after ('\x22' :: rest), []⟩ := by
    have hskip := skip_inside p '\x22' rest []
    rwa [List.append_nil] at hskip
  rw [pull_of_lexeme (lexeme?_string p rest), Lexeme.string]
  cases h with
  | @closed inside value behind hitems =>
      have hread : readString (inside ++ '\x22' :: behind) = .closed value (inside.length + 1) := by
        rw [hitems.readString_append, readString_quote, StringReading.pushAll, List.append_nil,
          Nat.add_comm]
      simp only [hread, pass, skip_quoted]
  | @badEscape inside value behind hitems hnone =>
      have hread : readString (inside ++ '\x5c' :: behind) = .badEscape inside.length := by
        rw [hitems.readString_append, hnone.readString, StringReading.pushAll, Nat.zero_add]
      simp only [hread, pass, hall, skip_inside]
  | unclosed hitems =>
      have hread : readString rest = .unclosed := by
        have happend := hitems.readString_append []
        rwa [List.append_nil] at happend
      simp only [hread, pass, hall, skip_zero]

/-- What the language of character literals says is read. -/
theorem pull_of_readsCharacter {read : Except Diagnostic Token × Cursor}
    (h : ReadsCharacter p rest read) : pull ⟨p, '\x27' :: rest⟩ = read := by
  -- One that goes wrong takes its opening quote alone.
  have hquote : (Cursor.mk p ('\x27' :: rest)).skip (0 + 1) = ⟨p.advance '\x27', rest⟩ := rfl
  rw [pull_of_lexeme (lexeme?_character p rest), Lexeme.character]
  cases h with
  | @closed item behind d hitem =>
      have hread : readCharacter (item ++ '\x27' :: behind) = .ok (d, item.length + 2) :=
        hitem.readCharacter_append _
      have hlength : item.length + 2 - 1 + 1 = item.length + 2 := by omega
      simp only [hread, pass, hlength, skip_quoted]
  | empty => rfl
  | badEscape hnone => simp only [hnone.readCharacter, pass, hquote]
  | @long item behind c d hitem hc =>
      have hread : readCharacter (item ++ c :: behind) = .error (.longCharacter, item.length + 1) := by
        rw [hitem.readCharacter_append, closeCharacter, if_neg hc]
      simp only [hread, pass, hquote, skip_inside]
  | unclosed => rfl
  | unclosedItem hitem =>
      have hread : readCharacter rest = .error (.unclosedCharacter, 0) := by
        have happend := hitem.readCharacter_append []
        rwa [List.append_nil] at happend
      simp only [hread, pass, hquote, skip_zero]

/-- Behind an opening quote a string is read, or a character, exactly as the language of these says, and
so is the fault where the text is not of this language. -/
theorem pull_quoted (p : Position) (rest : List Char) (read : Except Diagnostic Token × Cursor) :
    (pull ⟨p, '\x22' :: rest⟩ = read ↔ ReadsString p rest read) ∧
      (pull ⟨p, '\x27' :: rest⟩ = read ↔ ReadsCharacter p rest read) := by
  constructor
  · refine ⟨?_, pull_of_readsString⟩
    rintro rfl
    obtain ⟨read, hreads⟩ := exists_readsString p rest
    rwa [pull_of_readsString hreads]
  · refine ⟨?_, pull_of_readsCharacter⟩
    rintro rfl
    obtain ⟨read, hreads⟩ := exists_readsCharacter p rest
    rwa [pull_of_readsCharacter hreads]

end Cursor

end Bucket
