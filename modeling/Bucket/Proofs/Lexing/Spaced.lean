/-
# Tokens with blanks between them

Every token is over where a blank stands, and where an expression may be over. So tokens that are
written one after the other, with blanks between them, are read back (`Spaced.lexes`), whatever tokens
they are. In particular any tokens that can be spelled are the tokens of the text in which their
spellings stand with single blanks between them (`Source.tokens_spelled`).
-/
import Bucket.Proofs.Lexing.Tokens

namespace Bucket

open Lexer

/-- Whether a text is made of the spellings of tokens, with at least one blank between any two of
them. -/
inductive Spaced : List Token.Kind → List Char → Prop where
  | nil : Spaced [] []
  | blank {kinds : List Token.Kind} {text : List Char} {c : Char} :
      isBlank c = true → Spaced kinds text → Spaced kinds (c :: text)
  | word {kinds : List Token.Kind} {text : List Char} (k : Token.Kind) :
      text.head?.all isBlank = true → Spaced kinds text → Spaced (k :: kinds) (k.spelling ++ text)

/-- Whether a character may be the first one behind an expression. -/
def endsExpression (c : Char) : Bool := c == '\n' || c == ',' || c == ')' || c == ']'

namespace Token.Kind

/-- Every token is over before a blank, and before what may follow an expression. -/
theorem endsBefore_some {c : Char} (hc : (isBlank c || endsExpression c) = true) (k : Kind) :
    k.endsBefore (some c) = true := by
  have hcases : c = ' ' ∨ c = '\t' ∨ c = '\x0b' ∨ c = '\x0c' ∨ c = '\n' ∨ c = ',' ∨ c = ')' ∨
      c = ']' := by
    simpa only [isBlank, endsExpression, Bool.or_eq_true, beq_iff_eq, or_assoc] using hc
  have hword : (!(some c).any sharesFirstByte) = true := by
    rcases hcases with rfl | rfl | rfl | rfl | rfl | rfl | rfl | rfl <;> decide +kernel
  have hnumber : (some c).all endsNumber = true := by
    rcases hcases with rfl | rfl | rfl | rfl | rfl | rfl | rfl | rfl <;> decide +kernel
  cases k with
  | symbol s =>
      rcases hcases with rfl | rfl | rfl | rfl | rfl | rfl | rfl | rfl <;> cases s <;> rfl
  | literal v =>
      cases v with
      | integer n => exact hnumber
      | real x => exact hnumber
      | boolean b => exact hword
      | _ => rfl
  | identifier n => exact hword
  | keyword w => exact hword
  | empty => rfl

/-- Every token is over before the end of the file. -/
theorem endsBefore_none (k : Kind) : k.endsBefore Option.none = true := by
  cases k with
  | symbol s => cases s <;> rfl
  | literal v => cases v <;> rfl
  | _ => rfl

/-- Every token is over before a text that begins with a blank, or has no character, in front of what
may follow an expression. -/
theorem endsBefore_of_all_isBlank {text rest : List Char} (htext : text.head?.all isBlank = true)
    (hrest : rest.head?.all endsExpression = true) (k : Kind) :
    k.endsBefore (text ++ rest).head? = true := by
  cases text with
  | cons c text => exact k.endsBefore_some (Bool.or_eq_true_iff.2 (.inl htext))
  | nil =>
      cases rest with
      | nil => exact k.endsBefore_none
      | cons c rest => exact k.endsBefore_some (Bool.or_eq_true_iff.2 (.inr hrest))

end Token.Kind

/-- Tokens can be written with blanks between them. -/
theorem exists_spaced (kinds : List Token.Kind) : ∃ text, Spaced kinds text := by
  induction kinds with
  | nil => exact ⟨[], .nil⟩
  | cons k rest ih =>
      obtain ⟨text, htext⟩ := ih
      exact ⟨k.spelling ++ ' ' :: text, .word k rfl (.blank rfl htext)⟩

/-- Tokens with blanks between them are read back. -/
theorem Spaced.lexes {kinds : List Token.Kind} {text : List Char} (h : Spaced kinds text)
    (hkinds : ∀ k ∈ kinds, k.isWritable = true) : Lexes text kinds := by
  induction h with
  | nil => exact .nil
  | blank hc _ ih =>
      intro p
      rw [Cursor.tokens_congr (Lexes.pull_blank hc p _)]
      exact ih hkinds _
  | @word kinds text k hblank _ ih =>
      have hrest := ih fun k' hk' => hkinds k' (List.mem_cons_of_mem _ hk')
      have hover : k.endsBefore (text ++ []).head? = true := k.endsBefore_of_all_isBlank hblank rfl
      rw [List.append_nil] at hover
      exact .word (hkinds k List.mem_cons_self) hover hrest

/-! ## Tokens that can be spelled -/

namespace Token.Kind

/-- Whether there is a text for a token. A name is a word that is neither a keyword nor a truth value,
reals are finite and have no sign, and the end of the file is not written. -/
def Spellable : Kind → Prop
  | identifier n =>
      isWord n.toList = true ∧ (∀ k : Keyword, n ≠ k.text) ∧ ∀ b, n ≠ Literal.booleanText b
  | keyword _ => True
  | symbol s => s ≠ .endOfFile
  | literal (.real x) => x.isFinite = true ∧ x.isNegative = false
  | literal _ => True
  | empty => False

/-- A word that is neither a keyword nor a truth value is a name. -/
theorem ofWord_of_ne {n : String} (hkeyword : ∀ k : Keyword, n ≠ k.text)
    (hboolean : ∀ b, n ≠ Literal.booleanText b) : ofWord n.toList = identifier n := by
  have hk : Keyword.ofText? n = .none := by
    cases h : Keyword.ofText? n with
    | none => rfl
    | some k => exact absurd (Keyword.text_of_ofText? h).symm (hkeyword k)
  have hb : Literal.ofText? n = .none := by
    have htrue : n ≠ "true" := hboolean true
    have hfalse : n ≠ "false" := hboolean false
    rw [Literal.ofText?, if_neg htrue, if_neg hfalse]
  simp only [ofWord, String.ofList_toList, hk, hb]

/-- A token that can be spelled is one that a text can hold. -/
theorem isWritable_of_spellable {k : Kind} (h : k.Spellable) : k.isWritable = true := by
  cases k with
  | identifier n =>
      obtain ⟨hword, hkeyword, hboolean⟩ := h
      rw [isWritable, hword, ofWord_of_ne hkeyword hboolean, Bool.true_and, beq_self_eq_true]
  | keyword w => rfl
  | symbol s => exact bne_iff_ne.2 h
  | literal v =>
      cases v with
      | real x => rw [isWritable, h.1, h.2]; rfl
      | _ => rfl
  | empty => exact h.elim

end Token.Kind

/-- The spellings of tokens, with single blanks between them. -/
def spelled (kinds : List Token.Kind) : List Char :=
  List.intercalate [' '] (kinds.map Token.Kind.spelling)

theorem spaced_spelled (kinds : List Token.Kind) : Spaced kinds (spelled kinds) := by
  induction kinds with
  | nil => exact .nil
  | cons k rest ih =>
      cases rest with
      | nil =>
          rw [spelled, List.map_singleton, List.intercalate_singleton, ← List.append_nil k.spelling]
          exact .word k rfl .nil
      | cons k' rest =>
          rw [spelled, List.map_cons, List.map_cons, List.intercalate_cons_cons, List.append_assoc]
          exact .word k rfl (.blank rfl ih)

/-- Tokens that can be spelled are the tokens of the text in which their spellings stand with single
blanks between them. -/
theorem Source.tokens_spelled (name : String) {kinds : List Token.Kind}
    (h : ∀ k ∈ kinds, k.Spellable) :
    ∃ ts, (ofText name (String.ofList (spelled kinds))).tokens.toExcept = .ok ts ∧
      ts.map (·.kind) = kinds := by
  have hlexes : Lexes (spelled kinds) kinds :=
    (spaced_spelled kinds).lexes fun k hk => Token.Kind.isWritable_of_spellable (h k hk)
  obtain ⟨ts, e, hts, hkinds⟩ := hlexes .first
  refine ⟨ts, ?_, hkinds⟩
  rw [ofText, String.toList_ofList, hlexes.dropByteOrderMark, tokens, cursor, Cursor.ofChars, chars,
    String.toList_ofList, hts]
  rfl

/-- A quote in a string, a newline between words and a real of one half are read back. -/
theorem Source.tokens_spelled_half :
    let kinds : List Token.Kind :=
      [.identifier "ends", .keyword .endKw, .symbol .newline, .literal (.integer 18446744073709551615),
        .literal (.real ⟨0x3fe0000000000000⟩), .literal (.string "\x22\n"),
        .literal (.character '\x27'), .literal (.boolean true)]
    String.ofList (spelled kinds) =
      "ends end \n 18446744073709551615 0.5 \x22\\\x22\\n\x22 '\\'' true" ∧
    (∀ k ∈ kinds, k.Spellable) ∧
    ∃ ts, (ofText "in" (String.ofList (spelled kinds))).tokens.toExcept = .ok ts ∧
      ts.map (·.kind) = kinds := by
  intro kinds
  have h : ∀ k ∈ kinds, k.Spellable := by
    simp only [kinds, List.forall_mem_cons]
    refine ⟨⟨by decide +kernel, fun k => ?_, fun b => ?_⟩, trivial, nofun, trivial,
      ⟨by decide +kernel, by decide +kernel⟩, trivial, trivial, trivial, by simp⟩
    · cases k <;> decide
    · cases b <;> decide
  exact ⟨by decide +kernel, h, tokens_spelled "in" h⟩

end Bucket
