/-
# Words are read back

A word that is written out, in front of a character whose first byte shows that the word is over, is
read as that word (`Lexeme.of_word`). All characters that could go on with a word share their first
byte with one that could (`sharesFirstByte_of_continuesWord`), and below the letters that is all
there is to it.
-/
import Bucket.Lexer.Lexeme
import Mathlib.Data.List.TakeWhile

namespace Bucket.Lexer

/-! ## Runs of characters -/

section Runs

variable {p : Char → Bool} {run rest : List Char}

/-- A run of characters ends where a text begins with another one. -/
theorem takeWhile_run (hrun : ∀ c ∈ run, p c) (hrest : rest.head?.any p = false) :
    (run ++ rest).takeWhile p = run := by
  rw [List.takeWhile_append_of_pos hrun]
  cases rest with
  | nil => simp
  | cons c rest => simp_all

/-- Behind a run of characters there is the text that begins with another one. -/
theorem dropWhile_run (hrun : ∀ c ∈ run, p c) (hrest : rest.head?.any p = false) :
    (run ++ rest).dropWhile p = rest := by
  rw [List.dropWhile_append_of_pos hrun]
  cases rest with
  | nil => simp
  | cons c rest => simp_all

/-- Passing as many characters as a run has leads behind it. -/
theorem drop_length_takeWhile (p : Char → Bool) (text : List Char) :
    text.drop (text.takeWhile p).length = text.dropWhile p := by
  induction text with
  | nil => rfl
  | cons c text ih => by_cases hc : p c <;> simp [hc, ih]

theorem take_length_takeWhile (p : Char → Bool) (text : List Char) :
    text.take (text.takeWhile p).length = text.takeWhile p :=
  (List.prefix_iff_eq_take.1 (List.takeWhile_prefix p)).symm

/-- What is left behind a run does not go on with it. -/
theorem any_head?_dropWhile (p : Char → Bool) (text : List Char) :
    (text.dropWhile p).head?.any p = false := by
  have h := List.head?_dropWhile_not p text
  cases hd : (text.dropWhile p).head? with
  | none => rfl
  | some c => simpa [hd] using h

end Runs

/-! ## Where words are over -/

theorem ascending_letters : Unicode.letters.ascendingFrom 0x41 = true := by decide +kernel

theorem ascending_decimalDigits : Unicode.decimalDigits.ascendingFrom 0x30 = true := by
  decide +kernel

/-- A character of a class has the first byte of a character of that class. -/
theorem meets_firstByteBlock {c : Char} {o : Nat} {ranges : Unicode.Ranges}
    (hranges : ranges.ascendingFrom o = true) (h : ranges.holds c.toNat = true) :
    ranges.meets (Unicode.firstByteBlock c.toNat).1 (Unicode.firstByteBlock c.toNat).2 = true := by
  obtain ⟨r, hr, hlower, hupper⟩ := (Unicode.Ranges.holds_iff hranges).1 h
  obtain ⟨hstart, hstop⟩ := Unicode.mem_firstByteBlock c.toNat
  exact Unicode.Ranges.meets_iff.2 ⟨r, hr, c.toNat, hstart, hstop, hlower, hupper⟩

/-- A character that goes on with a word has the first byte of one that does. -/
theorem sharesFirstByte_of_continuesWord {c : Char} (h : continuesWord c = true) :
    sharesFirstByte c = true := by
  simp only [continuesWord, startsWord, Bool.or_eq_true, beq_iff_eq] at h
  simp only [sharesFirstByte, Bool.or_eq_true, Bool.and_eq_true, decide_eq_true_eq]
  rcases h with (h | rfl) | h
  · exact .inl (.inl (meets_firstByteBlock ascending_letters h))
  · exact .inr (Unicode.mem_firstByteBlock _)
  · exact .inl (.inr (meets_firstByteBlock ascending_decimalDigits h))

/-- A character of one byte is the only one with its first byte. -/
theorem continuesWord_of_sharesFirstByte {c : Char} (hc : c.toNat < 0x80)
    (h : sharesFirstByte c = true) : continuesWord c = true := by
  have hblock : Unicode.firstByteBlock c.toNat = (c.toNat, c.toNat + 1) := by
    simp [Unicode.firstByteBlock, Unicode.firstByteWidth, Unicode.formStart, hc]
  -- So a range of characters that meets those with this byte has this very character.
  have hmeets : ∀ {o : Nat} {ranges : Unicode.Ranges}, ranges.ascendingFrom o = true →
      ranges.meets c.toNat (c.toNat + 1) = true → ranges.holds c.toNat = true := by
    intro o ranges hranges hmeets
    obtain ⟨r, hr, n, hstart, hstop, hlower, hupper⟩ := Unicode.Ranges.meets_iff.1 hmeets
    obtain rfl : n = c.toNat := by omega
    exact (Unicode.Ranges.holds_iff hranges).2 ⟨r, hr, hlower, hupper⟩
  simp only [sharesFirstByte, hblock, Bool.or_eq_true, Bool.and_eq_true, decide_eq_true_eq] at h
  simp only [continuesWord, startsWord, Bool.or_eq_true, beq_iff_eq]
  rcases h with (h | h) | ⟨hlower, hupper⟩
  · exact .inl (.inl (hmeets ascending_letters h))
  · exact .inr (hmeets ascending_decimalDigits h)
  · exact .inl (.inr (Char.toNat_inj.1 (by omega)))

/-- No word begins with a character before the letters. -/
theorem startsWord_of_lt {c : Char} (hc : c.toNat < 0x41) : startsWord c = false := by
  have hne : c ≠ '_' := by
    rintro rfl
    exact absurd hc (by decide)
  have hletter : Unicode.isLetter c = false := by
    rw [Unicode.isLetter, Bool.eq_false_iff, ne_eq, Unicode.Ranges.holds_iff ascending_letters]
    exact Unicode.Ranges.not_mem_of_lt ascending_letters hc
  rw [startsWord, hletter, Bool.false_or, beq_eq_false_iff_ne]
  exact hne

/-! ## Words -/

/-- Whether some characters are a word. -/
def isWord : List Char → Bool
  | [] => false
  | c :: more => startsWord c && more.all continuesWord

/-- A run of the characters of a word is read as one word. -/
theorem Lexeme.of_run {c : Char} {more rest : List Char} (hword : isWord (c :: more) = true)
    (hover : rest.head?.any continuesWord = false) :
    Lexeme.of c (more ++ rest) = ⟨.token (wordKind (c :: more) rest), more.length⟩ := by
  obtain ⟨hstart, hmore⟩ := Bool.and_eq_true_iff.1 hword
  have hmore : ∀ d ∈ more, continuesWord d := List.all_eq_true.1 hmore
  simp only [Lexeme.of, hstart, if_true, Lexeme.word, takeWhile_run hmore hover,
    dropWhile_run hmore hover]

/-- A word is read up to where it is over. -/
theorem Lexeme.of_word {c : Char} {more rest : List Char} (hword : isWord (c :: more) = true)
    (hrest : rest.head?.any sharesFirstByte = false) :
    Lexeme.of c (more ++ rest) = ⟨.token (.ofWord (c :: more)), more.length⟩ := by
  have hover : rest.head?.any continuesWord = false := by
    cases rest with
    | nil => rfl
    | cons d rest =>
        simp only [List.head?_cons, Option.any_some] at hrest ⊢
        exact Bool.eq_false_iff.2 fun h => by simp [sharesFirstByte_of_continuesWord h] at hrest
  rw [of_run hword hover, wordKind, hrest, if_neg Bool.false_ne_true]

end Bucket.Lexer
