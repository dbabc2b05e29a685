/-
# Numbers are read back

A number that is written out, in front of a character that cannot go on with it, is read as that
number (`readNumber_chars`), and numbers are only read in front of such characters
(`any_goesOn_readNumber`). The text of a real is such a number, and its value rounds to that real
(`exists_number_of_real`), as does the text of an integer (`exists_number_of_integer`).
-/
import Bucket.Proofs.Lexing.Word
import Bucket.Proofs.Numeral.Rounding

namespace Bucket.Lexer

open Numeral (Binary64 Decimal)

/-! ## Numbers that are written out -/

/-- Whether an exponent has its letter, a sign if any, and nothing but digits behind them. -/
structure Exponent.Shaped (e : Exponent) : Prop where
  letter : e.letter = 'e' ∨ e.letter = 'E'
  sign : ∀ s ∈ e.sign, s = '+' ∨ s = '-'
  digits : ∀ c ∈ e.digits, c.isDigit

/-- Whether an exponent has some digits too. -/
structure Exponent.WellFormed (e : Exponent) : Prop extends e.Shaped where
  digits_ne_nil : e.digits ≠ []

/-- Whether a number has nothing but digits where there are digits in numbers. -/
structure Number.Shaped (n : Number) : Prop where
  whole : ∀ c ∈ n.whole, c.isDigit
  fraction : ∀ ds ∈ n.fraction, ∀ c ∈ ds, c.isDigit
  exponent : ∀ e ∈ n.exponent, e.Shaped

/-- Whether a number has some digits in its exponent too, if it has one. -/
structure Number.WellFormed (n : Number) : Prop where
  whole : ∀ c ∈ n.whole, c.isDigit
  fraction : ∀ ds ∈ n.fraction, ∀ c ∈ ds, c.isDigit
  exponent : ∀ e ∈ n.exponent, e.WellFormed

theorem Number.WellFormed.shaped {n : Number} (hn : n.WellFormed) : n.Shaped :=
  ⟨hn.whole, hn.fraction, fun e he => (hn.exponent e he).toShaped⟩

/-- Whether a number cannot go on with a character, and may stand before it. -/
def endsNumber (c : Char) : Bool :=
  !(c.isDigit || c == '.' || c == 'e' || c == 'E' || continuesNumber c)

/-- Whether a number goes on with a character. -/
def Number.goesOn (n : Number) (c : Char) : Bool :=
  c.isDigit || n.exponent.isNone && (c == 'e' || c == 'E' || n.fraction.isNone && c == '.')

/-- No number goes on with a character that ends all numbers. -/
theorem Number.any_goesOn_of_endsNumber (n : Number) {rest : List Char}
    (hrest : rest.head?.all endsNumber) : rest.head?.any n.goesOn = false := by
  cases rest <;> simp_all [endsNumber, goesOn]

/-- Whether reading a number may go on with a character. Behind the letter of an exponent a sign may
stand. -/
def Number.readsOn (n : Number) (c : Char) : Bool :=
  n.goesOn c || n.exponent.any fun e => e.sign.isNone && e.digits.isEmpty && (c == '+' || c == '-')

/-- Behind an exponent reading may go on with digits, and with a sign behind its letter. -/
theorem Number.readsOn_of_some {n : Number} {e : Exponent} (he : n.exponent = some e) :
    n.readsOn = fun c =>
      c.isDigit || e.sign.isNone && e.digits.isEmpty && (c == '+' || c == '-') := by
  funext c
  simp [readsOn, goesOn, he]

theorem Number.WellFormed.readsOn_eq {n : Number} (hn : n.WellFormed) : n.readsOn = n.goesOn := by
  funext c
  cases he : n.exponent with
  | none => simp [readsOn, he]
  | some e => simp [readsOn, he, (hn.exponent e he).digits_ne_nil]

section Reading

variable {n : Number} {rest : List Char}

theorem any_goesOn_of_readsOn (hrest : rest.head?.any n.readsOn = false) :
    rest.head?.any n.goesOn = false := by
  cases rest <;> simp_all [Number.readsOn]

theorem any_isDigit_of_readsOn (hrest : rest.head?.any n.readsOn = false) :
    rest.head?.any Char.isDigit = false := by
  cases rest <;> simp_all [Number.readsOn, Number.goesOn]

/-- The sign and the digits of an exponent are told apart. -/
theorem readSign_chars {e : Exponent} (hn : n.Shaped) (he : n.exponent = some e)
    (hrest : rest.head?.any n.readsOn = false) :
    readSign (e.sign.toList ++ (e.digits ++ rest)) = (e.sign, e.digits ++ rest) := by
  have hshaped := hn.exponent e he
  cases hs : e.sign with
  | some s => rcases hshaped.sign s hs with rfl | rfl <;> rfl
  | none =>
      -- Neither a digit nor what stands behind the number is a sign.
      have hhead : ∀ c ∈ (e.digits ++ rest).head?, c ≠ '+' ∧ c ≠ '-' := by
        intro c hc
        cases hd : e.digits with
        | nil =>
            rw [hd, List.nil_append] at hc
            rw [hc, Option.any_some, Number.readsOn, he, Option.any_some, hs, hd] at hrest
            simp_all
        | cons d ds =>
            have hdigit : d.isDigit := hshaped.digits d (by simp [hd])
            rw [hd] at hc
            obtain rfl := Option.some.inj hc
            constructor <;> rintro rfl <;> simp at hdigit
      rw [Option.toList_none, List.nil_append]
      unfold readSign
      split
      · rename_i h
        exact absurd rfl (hhead '+' (by simp [h])).1
      · rename_i h
        exact absurd rfl (hhead '-' (by simp [h])).2
      · rfl

/-- An exponent is read back. -/
theorem readExponent_chars (hn : n.Shaped) (hrest : rest.head?.any n.readsOn = false) :
    readExponent (Number.exponentChars n.exponent ++ rest) = (n.exponent, rest) := by
  have hdigit := any_isDigit_of_readsOn hrest
  cases he : n.exponent with
  | none =>
      cases rest with
      | nil => rfl
      | cons c rest =>
          have : ¬ (c = 'e' ∨ c = 'E') := by
            simp only [List.head?_cons, Option.any_some, Number.readsOn, Number.goesOn, he] at hrest
            rintro (rfl | rfl) <;> simp at hrest
          simp [Number.exponentChars, readExponent, this]
  | some e =>
      have hshaped := hn.exponent e he
      simp only [Number.exponentChars, Exponent.chars, List.cons_append, List.append_assoc,
        readExponent, if_pos hshaped.letter, readSign_chars hn he hrest,
        takeWhile_run hshaped.digits hdigit, dropWhile_run hshaped.digits hdigit]

/-- No digit stands where an exponent may begin. -/
theorem any_isDigit_exponentChars (hn : n.Shaped) (hrest : rest.head?.any n.readsOn = false) :
    (Number.exponentChars n.exponent ++ rest).head?.any Char.isDigit = false := by
  cases he : n.exponent with
  | none => exact any_isDigit_of_readsOn hrest
  | some e =>
      rcases (hn.exponent e he).letter with h | h <;> simp [Number.exponentChars, Exponent.chars, h]

/-- A fraction is read back. -/
theorem readFraction_chars (hn : n.Shaped) (hrest : rest.head?.any n.readsOn = false) :
    readFraction (Number.fractionChars n.fraction ++
      (Number.exponentChars n.exponent ++ rest)) =
      (n.fraction, Number.exponentChars n.exponent ++ rest) := by
  have hdigit := any_isDigit_exponentChars hn hrest
  cases hf : n.fraction with
  | some ds =>
      have hds := hn.fraction ds hf
      simp only [Number.fractionChars, List.cons_append, readFraction, takeWhile_run hds hdigit,
        dropWhile_run hds hdigit]
  | none =>
      rw [Number.fractionChars, List.nil_append]
      unfold readFraction
      split
      · -- Neither an exponent nor what stands behind the number begins with a point.
        rename_i h
        exfalso
        cases he : n.exponent with
        | none =>
            rw [he, Number.exponentChars, List.nil_append] at h
            simp [h, Number.readsOn, Number.goesOn, he, hf] at hrest
        | some e =>
            rw [he, Number.exponentChars, Exponent.chars, List.cons_append, List.cons.injEq] at h
            rcases (hn.exponent e he).letter with hl | hl <;> rw [hl] at h <;> simp at h
      · rfl

/-- A number that is written out is read back, with or without digits in its exponent, where reading it
cannot go on. -/
theorem readNumber_shaped (hn : n.Shaped) (hrest : rest.head?.any n.readsOn = false) :
    readNumber (n.chars ++ rest) = (n, rest) := by
  have hdigit : (Number.fractionChars n.fraction ++
      (Number.exponentChars n.exponent ++ rest)).head?.any Char.isDigit = false := by
    cases n.fraction with
    | some ds => simp [Number.fractionChars]
    | none => exact any_isDigit_exponentChars hn hrest
  simp only [readNumber, Number.chars, List.append_assoc, takeWhile_run hn.whole hdigit,
    dropWhile_run hn.whole hdigit, readFraction_chars hn hrest, readExponent_chars hn hrest]

/-- A number that is written out is read back. -/
theorem readNumber_chars (hn : n.WellFormed) (hrest : rest.head?.any n.goesOn = false) :
    readNumber (n.chars ++ rest) = (n, rest) :=
  readNumber_shaped hn.shaped (hn.readsOn_eq ▸ hrest)

end Reading

/-! ## Numbers that were read -/

/-- A sign that was read is one. -/
theorem eq_of_mem_readSign {text : List Char} {s : Char} (h : s ∈ (readSign text).1) :
    s = '+' ∨ s = '-' := by
  unfold readSign at h
  split at h
  · exact .inl (Option.mem_some_iff.1 h).symm
  · exact .inr (Option.mem_some_iff.1 h).symm
  · cases h

/-- A number that was read has nothing but digits where there are digits in numbers. -/
theorem shaped_readNumber (text : List Char) : (readNumber text).1.Shaped := by
  constructor
  case whole => exact fun c hc => List.mem_takeWhile_imp hc
  case fraction =>
    intro ds hds c hc
    simp only [readNumber] at hds
    unfold readFraction at hds
    split at hds
    · obtain rfl := Option.some.inj hds
      exact List.mem_takeWhile_imp hc
    · cases hds
  case exponent =>
    intro e he
    simp only [readNumber] at he
    unfold readExponent at he
    split at he
    · cases he
    · split at he
      case isTrue hletter =>
        obtain rfl := Option.some.inj he
        exact ⟨hletter, fun s hs => eq_of_mem_readSign hs, fun c hc => List.mem_takeWhile_imp hc⟩
      case isFalse => cases he

/-- A number that was read is well formed, unless its exponent has no digits. -/
theorem wellFormed_readNumber (text : List Char)
    (h : (readNumber text).1.exponent.any (·.digits.isEmpty) = false) :
    (readNumber text).1.WellFormed := by
  obtain ⟨hwhole, hfraction, hexponent⟩ := shaped_readNumber text
  refine ⟨hwhole, hfraction, fun e he => ⟨hexponent e he, ?_⟩⟩
  rwa [he, Option.any_some, List.isEmpty_eq_false_iff] at h

/-- Behind a fraction there is no digit. Where there is none, there is no point either. -/
theorem not_mem_head?_readFraction {text : List Char} (h : text.head?.any Char.isDigit = false) :
    (readFraction text).2.head?.any Char.isDigit = false ∧
      ((readFraction text).1.isNone → (readFraction text).2.head? ≠ some '.') := by
  unfold readFraction
  split
  · exact ⟨any_head?_dropWhile Char.isDigit _, fun hnone => by cases hnone⟩
  · rename_i hpoint
    refine ⟨h, fun _ hhead => ?_⟩
    obtain ⟨rest, rfl⟩ := List.head?_eq_some_iff.1 hhead
    exact hpoint rest rfl

/-- Where no sign is read none stands. -/
theorem head?_readSign {text : List Char} (h : (readSign text).1 = none) :
    text.head?.any (fun c => c == '+' || c == '-') = false := by
  unfold readSign at h
  split at h
  · cases h
  · cases h
  · rename_i hplus hminus
    cases text with
    | nil => rfl
    | cons c text =>
        rw [List.head?_cons, Option.any_some, Bool.or_eq_false_iff, beq_eq_false_iff_ne,
          beq_eq_false_iff_ne]
        exact ⟨fun hc => hplus text (hc ▸ rfl), fun hc => hminus text (hc ▸ rfl)⟩

/-- Reading a number goes as far as it can. -/
theorem any_readsOn_readNumber (text : List Char) :
    (readNumber text).2.head?.any (readNumber text).1.readsOn = false := by
  obtain ⟨hdigit, hpoint⟩ :=
    not_mem_head?_readFraction (any_head?_dropWhile Char.isDigit text)
  simp only [readNumber]
  generalize readFraction (text.dropWhile Char.isDigit) = fraction at hdigit hpoint ⊢
  obtain ⟨fraction, rest⟩ := fraction
  cases rest with
  | nil => rfl
  | cons c rest =>
      rw [readExponent]
      split
      case isTrue =>
        have hover := any_head?_dropWhile Char.isDigit (readSign rest).2
        rw [Number.readsOn_of_some rfl]
        cases hsign : (readSign rest).1 with
        | some s => simpa using hover
        | none =>
            cases hdigits : (readSign rest).2.takeWhile Char.isDigit with
            | cons d ds => simpa using hover
            | nil =>
                -- What stands behind the letter is neither a digit nor a sign.
                have hrest : (readSign rest).2 = rest := by
                  have happend := readSign_append rest
                  rwa [hsign, Option.toList_none, List.nil_append] at happend
                have hbehind : (readSign rest).2.dropWhile Char.isDigit = rest := by
                  have happend := List.takeWhile_append_dropWhile (p := Char.isDigit)
                    (l := (readSign rest).2)
                  rw [hdigits, List.nil_append] at happend
                  exact happend.trans hrest
                have hsigns := head?_readSign hsign
                rw [hbehind] at hover ⊢
                cases rest <;> simp_all
      case isFalse hletter =>
        have hletter : c ≠ 'e' ∧ c ≠ 'E' := not_or.1 hletter
        simp_all [Number.readsOn, Number.goesOn]

/-- A number is read as far as it goes. -/
theorem any_goesOn_readNumber (text : List Char) :
    (readNumber text).2.head?.any (readNumber text).1.goesOn = false :=
  any_goesOn_of_readsOn (any_readsOn_readNumber text)

/-! ## The text of a real -/

theorem isDigit_zero : Char.isDigit '0' = true := by decide

/-- Taking zeros from the end of some digits leaves digits to which they can be put back. -/
theorem exists_dropFinalZeros_append (digits : List Char) :
    ∃ z, digits = Numeral.dropFinalZeros digits ++ List.replicate z '0' := by
  have hzeros : digits.reverse.takeWhile (· == '0') =
      List.replicate (digits.reverse.takeWhile (· == '0')).length '0' :=
    List.eq_replicate_of_mem fun c hc => by simpa using List.mem_takeWhile_imp hc
  refine ⟨(digits.reverse.takeWhile (· == '0')).length, ?_⟩
  have happend := List.takeWhile_append_dropWhile (p := (· == '0')) (l := digits.reverse)
  rw [hzeros] at happend
  have := congrArg List.reverse happend
  rw [List.reverse_append, List.reverse_reverse, List.reverse_replicate] at this
  exact this.symm

/-- A number whose digits and exponent are those of a decimal, or have more zeros. -/
theorem Number.toReal_decimal {n : Number} {value : Nat} {e : Int} (k : Nat) (hvalue : 0 < value)
    (h : n.decimal = ⟨value * 10 ^ k, e - k⟩) :
    n.decimal.toReal = Decimal.toReal ⟨value, e⟩ := by
  rw [h, Decimal.toReal_mul_pow hvalue]

section Layout

variable {digits : List Char} (hdigits : ∀ c ∈ digits, c.isDigit)
include hdigits

/-- Digits with the point in its place are a number of the same value. -/
theorem exists_number_of_positional (hvalue : 0 < Nat.ofDigitChars 10 digits 0) (e : Int) :
    ∃ n : Number, n.WellFormed ∧ n.chars = Numeral.positional digits e ∧ n.whole ≠ [] ∧ n.isReal ∧
      n.decimal.toReal =
        Decimal.toReal ⟨Nat.ofDigitChars 10 digits 0, e + 1 - digits.length⟩ := by
  have hzeros : ∀ k, ∀ c ∈ List.replicate k '0', Char.isDigit c := by
    intro k c hc
    rw [List.eq_of_mem_replicate hc]
    exact isDigit_zero
  have happend : ∀ {a b : List Char}, (∀ c ∈ a, Char.isDigit c) → (∀ c ∈ b, Char.isDigit c) →
      ∀ c ∈ a ++ b, Char.isDigit c := fun ha hb c hc =>
    (List.mem_append.1 hc).elim (ha c) (hb c)
  unfold Numeral.positional
  by_cases he : e < 0
  · -- The point stands before all digits.
    rw [if_pos he]
    refine ⟨⟨['0'], some (List.replicate (-e - 1).toNat '0' ++ digits), none⟩,
      ⟨hzeros 1, ?_, by simp⟩, ?_, by simp, rfl, Number.toReal_decimal 0 hvalue ?_⟩
    · rintro ds hds
      obtain rfl := Option.some.inj hds
      exact happend (hzeros _) hdigits
    · simp [Number.chars, Number.fractionChars, Number.exponentChars]
    · simp only [Number.decimal, Option.getD_some, List.cons_append, List.nil_append,
        Nat.ofDigitChars_cons, Nat.ofDigitChars_append, Nat.ofDigitChars_replicate_zero,
        List.length_append, List.length_replicate, Decimal.mk.injEq]
      exact ⟨by simp, by omega⟩
  · rw [if_neg he]
    by_cases hlong : digits.length ≤ e.toNat + 1
    · -- The point stands behind all digits.
      have hdrop : digits.drop (e.toNat + 1) = [] := List.drop_eq_nil_of_le hlong
      have htake : digits.take (e.toNat + 1) = digits := List.take_of_length_le hlong
      refine ⟨⟨digits ++ List.replicate (e.toNat + 1 - digits.length) '0', some ['0'], none⟩,
        ⟨happend hdigits (hzeros _), ?_, by simp⟩, ?_, ?_, rfl,
        Number.toReal_decimal (e.toNat + 1 - digits.length + 1) hvalue ?_⟩
      · rintro ds hds
        obtain rfl := Option.some.inj hds
        exact hzeros 1
      · simp [Number.chars, Number.fractionChars, Number.exponentChars, hdrop, htake]
      · rintro h
        rw [List.append_eq_nil_iff] at h
        rw [h.1] at hvalue
        simp at hvalue
      · simp only [Number.decimal, Option.getD_some, Nat.ofDigitChars_append,
          Nat.ofDigitChars_replicate_zero, List.length_singleton, Decimal.mk.injEq]
        constructor
        · rw [Nat.ofDigitChars_cons, Nat.ofDigitChars_nil, Nat.pow_succ]
          rw [Nat.mul_comm _ 10, ← Nat.mul_assoc, Nat.mul_comm _ (10 * _)]
          rfl
        · omega
    · -- The point stands between digits.
      have hdrop : (digits.drop (e.toNat + 1)).isEmpty = false := by
        simp only [List.isEmpty_eq_false_iff, ne_eq, List.drop_eq_nil_iff]
        omega
      refine ⟨⟨digits.take (e.toNat + 1), some (digits.drop (e.toNat + 1)), none⟩,
        ⟨fun c hc => hdigits c (List.mem_of_mem_take hc), ?_, by simp⟩, ?_, ?_, rfl,
        Number.toReal_decimal 0 hvalue ?_⟩
      · rintro ds hds
        obtain rfl := Option.some.inj hds
        exact fun c hc => hdigits c (List.mem_of_mem_drop hc)
      · simp [Number.chars, Number.fractionChars, Number.exponentChars, hdrop,
          Nat.sub_eq_zero_of_le (Nat.le_of_not_le hlong)]
      · intro h
        rw [List.take_eq_nil_iff] at h
        rcases h with h | h
        · omega
        · simp [h] at hvalue
      · simp only [Number.decimal, Option.getD_some, List.take_append_drop, List.length_drop,
          Decimal.mk.injEq]
        exact ⟨by simp, by omega⟩

/-- Digits with the point behind the first one and an exponent are a number of the same value. -/
theorem exists_number_of_scientific (hvalue : 0 < Nat.ofDigitChars 10 digits 0) (e : Int) :
    ∃ n : Number, n.WellFormed ∧ n.chars = Numeral.scientific digits e ∧ n.whole ≠ [] ∧ n.isReal ∧
      n.decimal.toReal =
        Decimal.toReal ⟨Nat.ofDigitChars 10 digits 0, e + 1 - digits.length⟩ := by
  have hnonempty : digits ≠ [] := by
    rintro rfl
    simp at hvalue
  obtain ⟨x, hx, hxchars, hxvalue⟩ : ∃ x : Exponent, x.WellFormed ∧
      x.chars = 'e' :: Numeral.exponentText e ∧ x.value = e := by
    have hdigit : ∀ (k : Nat) (c : Char), c ∈ Nat.toDigits 10 k → c.isDigit := fun k c hc =>
      Nat.isDigit_of_mem_toDigits (by decide) (by decide) hc
    unfold Numeral.exponentText
    by_cases he : e < 0
    · refine ⟨⟨'e', some '-', Nat.toDigits 10 (-e).toNat⟩,
        ⟨⟨.inl rfl, by simp, hdigit _⟩, Nat.toDigits_ne_nil⟩, by simp [Exponent.chars, he], ?_⟩
      simp only [Exponent.value, if_true, Nat.ofDigitChars_ten_toDigits]
      omega
    · refine ⟨⟨'e', none, Nat.toDigits 10 e.toNat⟩,
        ⟨⟨.inl rfl, by simp, hdigit _⟩, Nat.toDigits_ne_nil⟩, by simp [Exponent.chars, he], ?_⟩
      simp only [Exponent.value, Nat.ofDigitChars_ten_toDigits]
      simp
      omega
  have hexponent : ∀ y ∈ some x, Exponent.WellFormed y := by
    rintro y hy
    obtain rfl := Option.some.inj hy
    exact hx
  have htake : ∀ c ∈ digits.take 1, c.isDigit := fun c hc => hdigits c (List.mem_of_mem_take hc)
  have hwhole : digits.take 1 ≠ [] := by simpa using hnonempty
  have hlength := List.length_pos_iff.2 hnonempty
  unfold Numeral.scientific
  by_cases hone : digits.length ≤ 1
  · refine ⟨⟨digits.take 1, none, some x⟩, ⟨htake, by simp, hexponent⟩, ?_, hwhole, rfl,
      Number.toReal_decimal 0 hvalue ?_⟩
    · simp [Number.chars, Number.fractionChars, Number.exponentChars, hone, hxchars]
    · simp only [Number.decimal, Option.getD_none, List.append_nil, List.length_nil,
        List.take_of_length_le hone, hxvalue, Decimal.mk.injEq]
      exact ⟨by simp, by omega⟩
  · refine ⟨⟨digits.take 1, some (digits.drop 1), some x⟩, ⟨htake, ?_, hexponent⟩, ?_, hwhole, rfl,
      Number.toReal_decimal 0 hvalue ?_⟩
    · rintro ds hds
      obtain rfl := Option.some.inj hds
      exact fun c hc => hdigits c (List.mem_of_mem_drop hc)
    · simp [Number.chars, Number.fractionChars, Number.exponentChars, hone, hxchars]
    · simp only [Number.decimal, Option.getD_some, List.take_append_drop, List.length_drop,
        hxvalue, Decimal.mk.injEq]
      exact ⟨by simp, by omega⟩

end Layout

/-- The text of a decimal that is not zero is a number that rounds to the same real. -/
theorem exists_number_of_layout {d : Decimal} (hd : 0 < d.digits) :
    ∃ n : Number, n.WellFormed ∧ n.chars = d.layout ∧ n.whole ≠ [] ∧ n.isReal ∧
      n.decimal.toReal = d.toReal := by
  -- The layout leaves the zeros at the end out. They go into the exponent.
  obtain ⟨z, hz⟩ := exists_dropFinalZeros_append (Nat.toDigits 10 d.digits)
  generalize hds : Numeral.dropFinalZeros (Nat.toDigits 10 d.digits) = digits at hz
  have hdigits : ∀ c ∈ digits, c.isDigit := by
    intro c hc
    refine Nat.isDigit_of_mem_toDigits (b := 10) (n := d.digits) (by decide) (by decide) ?_
    rw [hz]
    exact List.mem_append_left _ hc
  have hvalue : d.digits = Nat.ofDigitChars 10 digits 0 * 10 ^ z := by
    have := Nat.ofDigitChars_ten_toDigits (n := d.digits)
    rw [hz, Nat.ofDigitChars_append, Nat.ofDigitChars_replicate_zero, Nat.mul_comm] at this
    exact this.symm
  have hpos : 0 < Nat.ofDigitChars 10 digits 0 := by
    rw [hvalue] at hd
    exact Nat.pos_of_mul_pos_right hd
  have hwidth : Decimal.width d.digits = digits.length + z := by
    rw [Decimal.width, hz, List.length_append, List.length_replicate]
  have hreal : d.toReal = Decimal.toReal ⟨Nat.ofDigitChars 10 digits 0, d.exponent + z⟩ := by
    rw [← Decimal.toReal_mul_pow hpos z, ← hvalue, Int.add_sub_cancel]
  have horder : d.order - 1 + 1 - digits.length = d.exponent + z := by
    rw [Decimal.order, hwidth]
    omega
  simp only [Decimal.layout, hds, hreal, ← horder]
  split
  · exact exists_number_of_positional hdigits hpos _
  · exact exists_number_of_scientific hdigits hpos _

/-- The text of a finite real that is not negative is a number that rounds to that real. -/
theorem exists_number_of_real {x : Binary64} (hfinite : x.isFinite) (hsign : ¬ x.isNegative) :
    ∃ n : Number, n.WellFormed ∧ n.chars = x.chars ∧ n.whole ≠ [] ∧ n.isReal ∧
      n.decimal.toReal = x := by
  have hnan : ¬ x.isNaN := by
    have : x.size < Binary64.infiniteSize := of_decide_eq_true hfinite
    simp only [Binary64.isNaN, decide_eq_true_eq]
    omega
  have hchars : x.chars =
      if x.size = 0 then ['0', '.', '0'] else (Decimal.shortest (.ofSize x.size)).layout := by
    simp [Binary64.chars, hnan, hsign, hfinite]
  rw [hchars, Decimal.ofSize_size hsign]
  -- Zero has no digits to be laid out, and is written in one way.
  by_cases hzero : x.size = 0
  · rw [if_pos hzero]
    refine ⟨⟨['0'], some ['0'], none⟩, ⟨by simp, by simp, by simp⟩, rfl, by simp, rfl, ?_⟩
    rw [← Decimal.ofSize_size hsign, hzero]
    rfl
  · rw [if_neg hzero]
    have hpos := Nat.pos_of_ne_zero hzero
    rw [← Decimal.toReal_shortest_of_pos hpos hfinite hsign]
    obtain h := exists_number_of_layout (Decimal.digits_shortest_pos hpos hfinite hsign)
    rwa [Decimal.toReal_shortest_of_pos hpos hfinite hsign] at h ⊢

/-! ## The text of an integer -/

/-- The text of an integer is a number of that value. -/
theorem exists_number_of_integer (v : UInt64) :
    ∃ n : Number, n.WellFormed ∧ n.chars = Nat.toDigits 10 v.toNat ∧ n.whole ≠ [] ∧
      n.isReal = false ∧ n.exponent = none ∧ n.natural = v.toNat :=
  ⟨⟨Nat.toDigits 10 v.toNat, none, none⟩,
    ⟨fun _ hc => Nat.isDigit_of_mem_toDigits (by decide) (by decide) hc, by simp, by simp⟩,
    by simp [Number.chars, Number.fractionChars, Number.exponentChars],
    Nat.toDigits_ne_nil, rfl, rfl, Nat.ofDigitChars_ten_toDigits⟩

end Bucket.Lexer
