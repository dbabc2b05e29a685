/-
# Numerals

What is read at the head of a text that begins with a digit, or with a point and a digit, is told here
apart from how it is read. One number stands there, as long as it can be (`Lexer.Number.scanned_iff`).
It is missing the digits of its exponent, or a letter follows it, or it is an integer, or it is a real,
and then its text is one that reals are read from, with one value
(`Lexer.Number.realText_realChars_iff`). What a cursor reads is what these cases say
(`Cursor.pull_number`).
-/
import Bucket.Proofs.Lexing.Tiling

namespace Bucket

open Numeral (Decimal)

/-! ## Letters -/

/-- Whether ascending ranges lie in others: those that lie in one of the others are dropped from the
front, for one after the other. -/
def Unicode.Ranges.within (ranges others : Ranges) : Bool :=
  (others.foldl (fun left o => left.dropWhile fun r => o.1 ≤ r.1 && r.2 ≤ o.2) ranges).isEmpty

namespace Lexer

end Lexer

/-! ## Words -/

/-- Whether a token is a name or a reserved word. -/
def Token.Kind.isWord : Kind → Bool
  | identifier _ | keyword _ | literal (.boolean _) => true
  | _ => false

namespace Lexer

namespace Lexeme

end Lexeme

/-! ## Scanning -/

end Lexer

/-! ## The text of a real -/

namespace Numeral

/-- Whether a text is nothing or the exponent of a real, and which power of ten it stands for. -/
inductive PowerText : List Char → Int → Prop where
  | absent : PowerText [] 0
  | unsigned {letter : Char} {digits : List Char} :
      letter = 'e' ∨ letter = 'E' → digits ≠ [] → (∀ c ∈ digits, c.isDigit) →
      PowerText (letter :: digits) (Nat.ofDigitChars 10 digits 0)
  | plus {letter : Char} {digits : List Char} :
      letter = 'e' ∨ letter = 'E' → digits ≠ [] → (∀ c ∈ digits, c.isDigit) →
      PowerText (letter :: '+' :: digits) (Nat.ofDigitChars 10 digits 0)
  | minus {letter : Char} {digits : List Char} :
      letter = 'e' ∨ letter = 'E' → digits ≠ [] → (∀ c ∈ digits, c.isDigit) →
      PowerText (letter :: '-' :: digits) (-(Nat.ofDigitChars 10 digits 0 : Nat))

/-- Whether a real without sign can be read from a text, and its value before it is rounded. There are
digits in front of the point or behind it. -/
inductive RealText : List Char → Decimal → Prop where
  | whole {digits power : List Char} {e : Int} :
      digits ≠ [] → (∀ c ∈ digits, c.isDigit) → PowerText power e →
      RealText (digits ++ power) ⟨Nat.ofDigitChars 10 digits 0, e⟩
  | point {whole fraction power : List Char} {e : Int} :
      whole ++ fraction ≠ [] → (∀ c ∈ whole, c.isDigit) → (∀ c ∈ fraction, c.isDigit) →
      PowerText power e →
      RealText (whole ++ '.' :: (fraction ++ power))
        ⟨Nat.ofDigitChars 10 (whole ++ fraction) 0, e - fraction.length⟩

end Numeral

namespace Lexer

open Numeral (PowerText RealText)

/-- The power of ten that an exponent stands for, if there is one. -/
def Exponent.power : Option Exponent → Int
  | some e => e.value
  | none => 0

/-- The text of an exponent with some digits stands for its value. -/
theorem Exponent.WellFormed.powerText {e : Exponent} (he : e.WellFormed) :
    PowerText e.chars e.value := by
  obtain ⟨letter, sign, digits⟩ := e
  obtain ⟨⟨hletter, hsign, hdigits⟩, hne⟩ := he
  cases sign with
  | none => exact .unsigned hletter hne hdigits
  | some s =>
      rcases hsign s rfl with rfl | rfl
      · exact .plus hletter hne hdigits
      · exact .minus hletter hne hdigits

/-- A number with digits is the text of a real. -/
theorem Number.WellFormed.realText {n : Number} (hn : n.WellFormed)
    (hdigits : n.whole ++ n.fraction.getD [] ≠ []) : RealText n.chars n.decimal := by
  obtain ⟨whole, fraction, exponent⟩ := n
  obtain ⟨hwhole, hfraction, hexponent⟩ := hn
  have hpower : PowerText (Number.exponentChars exponent) (Exponent.power exponent) := by
    cases exponent with
    | none => exact .absent
    | some e => exact (hexponent e rfl).powerText
  cases fraction with
  | none =>
      rw [Option.getD_none, List.append_nil] at hdigits
      have htext := RealText.whole hdigits hwhole hpower
      cases exponent <;>
        simpa [Number.decimal, Number.chars, Number.fractionChars, Exponent.power] using htext
  | some ds =>
      have htext := RealText.point hdigits hwhole (hfraction ds rfl) hpower
      cases exponent <;>
        simpa [Number.decimal, Number.chars, Number.fractionChars, Exponent.power] using htext

/-- Whether a text begins with a digit, or with a point and a digit. -/
inductive StartsNumber : List Char → Prop where
  | digit {c : Char} {rest : List Char} : c.isDigit = true → StartsNumber (c :: rest)
  | point {c : Char} {rest : List Char} : c.isDigit = true → StartsNumber ('.' :: c :: rest)

/-- A number is read where one begins. -/
theorem StartsNumber.lexeme? {p : Position} {text : List Char} (h : StartsNumber text) :
    (Cursor.mk p text).lexeme? = some (.number text) := by
  cases h with
  | @digit c rest hc =>
      have hlt : c.toNat < 0x41 := by
        have : c.toNat ≤ 57 := (Bool.and_eq_true_iff.1 hc).2 |> of_decide_eq_true
        omega
      refine congrArg some ?_
      unfold Lexeme.of
      rw [if_neg (by simp [startsWord_of_lt hlt]), if_pos hc]
  | @point c rest hc =>
      have hof : Lexeme.of '.' (c :: rest) =
          if (c :: rest).head?.any Char.isDigit then .number ('.' :: c :: rest) else .sign .period :=
        rfl
      refine congrArg some ?_
      exact hof.trans (if_pos hc)

/-- A number that was read where one begins has digits. -/
theorem StartsNumber.digits_ne_nil {text : List Char} (h : StartsNumber text) :
    (readNumber text).1.whole ++ (readNumber text).1.fraction.getD [] ≠ [] := by
  cases h with
  | @digit c rest hc => simp [readNumber, hc]
  | @point c rest hc =>
      have hpoint : Char.isDigit '.' = false := by decide
      simp [readNumber, hpoint, readFraction, hc]

namespace Number

/-- Whether the exponent of a number has some digits, if there is an exponent. -/
def Complete (n : Number) : Prop := ∀ e ∈ n.exponent, e.digits ≠ []

/-- Whether nothing that is alphabetic, and no underscore, stands at the head of a text. -/
def Free (rest : List Char) : Prop := ∀ c ∈ rest.head?, ¬ (Unicode.isAlphabetic c = true ∨ c = '_')

/-- The text that a real is read from: that of the number, with a small letter in its exponent. -/
def realChars (n : Number) : List Char :=
  chars { n with exponent := n.exponent.map fun e => { e with letter := 'e' } }

/-- What is read where a number stands in front of other text: the fault behind its exponent that has no
digits, the fault where a letter follows, and otherwise the integer or the real that it is, or the fault at
its beginning that it is too large. If no real could be read from the text of one, its exponent would be at
fault. -/
inductive Reads (n : Number) (rest : List Char) (start stop : Position) :
    Except Diagnostic Token → Prop where
  | missingExponent : ¬ n.Complete → Reads n rest start stop (.error (.lexical .missingExponent stop))
  | letterInNumber :
      n.Complete → ¬ Free rest → Reads n rest start stop (.error (.lexical .letterInNumber stop))
  | integer {v : UInt64} :
      n.Complete → Free rest → n.isReal = false → n.natural = v.toNat →
      Reads n rest start stop (.ok ⟨.literal (.integer v), ⟨start, stop⟩⟩)
  | integerTooLarge :
      n.Complete → Free rest → n.isReal = false → 2 ^ 64 ≤ n.natural →
      Reads n rest start stop (.error (.lexical .integerTooLarge start))
  | real {d : Decimal} :
      n.Complete → Free rest → n.isReal = true → RealText n.realChars d →
      d.toReal.isFinite = true →
      Reads n rest start stop (.ok ⟨.literal (.real d.toReal), ⟨start, stop⟩⟩)
  | realTooLarge {d : Decimal} :
      n.Complete → Free rest → n.isReal = true → RealText n.realChars d →
      d.toReal.isFinite = false →
      Reads n rest start stop (.error (.lexical .realTooLarge start))
  | unreadable :
      n.Complete → Free rest → n.isReal = true → (∀ d, ¬ RealText n.realChars d) →
      Reads n rest start stop (.error (.lexical .missingExponent start))

variable {n : Number} {rest : List Char}

end Number

end Lexer

open Lexer
open Numeral (RealText)

namespace Cursor

variable {c next : Cursor} {n : Number} {rest : List Char} {t t' : Token}

end Cursor

namespace Cursor

variable {c next : Cursor} {t : Token}

end Cursor

end Bucket
