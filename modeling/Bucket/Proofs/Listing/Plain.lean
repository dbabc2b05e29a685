/-
# Plain text

A text without control characters is plain. It stands on one line, so lines of plain text that are
written one after the other can be told apart again (`Text.splitOn_lines`). Whatever a token holds, it is
listed as plain text: names and numbers have no control characters, and strings and characters are
shown in printable ASCII (`Token.Kind.plain_dump`).
-/
import Bucket.Proofs.Lexing.Tokens

namespace Bucket

open Lexer

/-! ## Control characters -/

namespace Text

/-- Whether a character is a control character. -/
def isControl (c : Char) : Bool := c.toNat < 0x20 || 0x7f ≤ c.toNat && c.toNat < 0xa0

/-- Whether a text has no control characters. -/
def Plain (text : List Char) : Prop := ∀ c ∈ text, isControl c = false

theorem plain_nil : Plain [] := by
  intro c hc
  cases hc

theorem plain_cons {c : Char} {text : List Char} (hc : isControl c = false) (h : Plain text) :
    Plain (c :: text) :=
  List.forall_mem_cons.2 ⟨hc, h⟩

/-- Whether a text is plain can be computed. -/
theorem plain_of_all {text : List Char} (h : (text.all fun c => !isControl c) = true) : Plain text := by
  intro c hc
  simpa using List.all_eq_true.1 h c hc

theorem Plain.append {a b : List Char} (ha : Plain a) (hb : Plain b) : Plain (a ++ b) :=
  List.forall_mem_append.2 ⟨ha, hb⟩

/-- Characters of printable ASCII are plain. -/
theorem isControl_of_printable {c : Char} (hlower : 0x20 ≤ c.toNat) (hupper : c.toNat ≤ 0x7e) :
    isControl c = false := by
  simp only [isControl, Bool.or_eq_false_iff, Bool.and_eq_false_iff, decide_eq_false_iff_not]
  omega

/-- Plain text holds no line feed. -/
theorem Plain.not_mem_newline {text : List Char} (h : Plain text) : '\n' ∉ text := by
  intro hmem
  exact absurd (h '\n' hmem) (by decide)

/-- Lines without line feeds, each of which is ended by one, can be told apart again. Behind the last
line feed there is nothing. -/
theorem splitOn_lines {lines : List (List Char)} (h : ∀ l ∈ lines, '\n' ∉ l) :
    (lines.flatMap (· ++ ['\n'])).splitOn '\n' = lines ++ [[]] := by
  induction lines with
  | nil => rfl
  | cons l rest ih =>
      have hl : ∀ c ∈ l, (c == '\n') = false := by
        intro c hc
        rw [beq_eq_false_iff_ne]
        rintro rfl
        exact h l (by simp) hc
      rw [List.flatMap_cons, List.append_assoc, List.singleton_append, List.cons_append,
        ← ih fun m hm => h m (by simp [hm])]
      exact List.splitOnP_append_cons_of_forall_mem hl '\n' rfl _

/-! ## Words and numbers -/

theorem isControl_of_isDigit {c : Char} (h : c.isDigit = true) : isControl c = false := by
  obtain ⟨hlower, hupper⟩ := Bool.and_eq_true_iff.1 h
  have hlower : 48 ≤ c.toNat := of_decide_eq_true hlower
  have hupper : c.toNat ≤ 57 := of_decide_eq_true hupper
  exact isControl_of_printable (by omega) (by omega)

/-- A class of characters above the first control characters, that does not meet the others, holds no
control character. -/
theorem isControl_of_holds {c : Char} {o : Nat} {ranges : Unicode.Ranges} (ho : 0x20 ≤ o)
    (hranges : ranges.ascendingFrom o = true) (hmeets : ranges.meets 0x7f 0xa0 = false)
    (h : ranges.holds c.toNat = true) : isControl c = false := by
  rw [Unicode.Ranges.holds_iff hranges] at h
  have hlower : ¬ c.toNat < o := fun hlt => Unicode.Ranges.not_mem_of_lt hranges hlt h
  have hupper : ¬ (0x7f ≤ c.toNat ∧ c.toNat < 0xa0) := by
    rintro ⟨hstart, hstop⟩
    obtain ⟨r, hr, hbounds⟩ := h
    have := Unicode.Ranges.meets_iff.2 ⟨r, hr, c.toNat, hstart, hstop, hbounds⟩
    rw [hmeets] at this
    cases this
  simp only [isControl, Bool.or_eq_false_iff, Bool.and_eq_false_iff, decide_eq_false_iff_not]
  omega

/-- No control character stands in a word. -/
theorem isControl_of_continuesWord {c : Char} (h : continuesWord c = true) : isControl c = false := by
  simp only [continuesWord, startsWord, Bool.or_eq_true, beq_iff_eq] at h
  rcases h with (h | rfl) | h
  · exact isControl_of_holds (by decide) ascending_letters (by decide +kernel) h
  · rfl
  · exact isControl_of_holds (by decide) ascending_decimalDigits (by decide +kernel) h

theorem plain_of_isWord {word : List Char} (h : isWord word = true) : Plain word := by
  cases word with
  | nil => exact plain_nil
  | cons c more =>
      obtain ⟨hstart, hmore⟩ := Bool.and_eq_true_iff.1 h
      refine plain_cons (isControl_of_continuesWord ?_) fun d hd => ?_
      · rw [continuesWord, hstart, Bool.true_or]
      · exact isControl_of_continuesWord (List.all_eq_true.1 hmore d hd)

theorem plain_of_digits {digits : List Char} (h : ∀ c ∈ digits, c.isDigit) : Plain digits :=
  fun c hc => isControl_of_isDigit (h c hc)

/-- A number that is written out is plain. -/
theorem plain_of_shaped {n : Number} (hn : n.Shaped) : Plain n.chars := by
  have hfraction : Plain (Number.fractionChars n.fraction) := by
    cases hf : n.fraction with
    | none => exact plain_nil
    | some ds => exact plain_cons rfl (plain_of_digits (hn.fraction ds hf))
  have hexponent : Plain (Number.exponentChars n.exponent) := by
    cases he : n.exponent with
    | none => exact plain_nil
    | some e =>
        obtain ⟨hletter, hsign, hdigits⟩ := hn.exponent e he
        have hsigns : Plain e.sign.toList := by
          intro c hc
          rcases hsign c (Option.mem_toList.1 hc) with rfl | rfl <;> rfl
        refine plain_cons ?_ (hsigns.append (plain_of_digits hdigits))
        rcases hletter with h | h <;> rw [h] <;> rfl
  exact (plain_of_digits hn.whole).append (hfraction.append hexponent)

/-! ## Characters in ASCII -/

/-- The digits of a number in base sixteen are printable ASCII, and none of them is a brace. -/
theorem mem_toDigits_sixteen {n : Nat} {c : Char} (h : c ∈ Nat.toDigits 16 n) :
    isControl c = false ∧ c ≠ '\x7d' := by
  -- Digit by digit, from the last one.
  have hdigit : ∀ d < 16, isControl d.digitChar = false ∧ d.digitChar ≠ '\x7d' := by decide
  induction n using Nat.strongRecOn with
  | _ n ih =>
      rw [Nat.toDigits_eq_if (by decide)] at h
      split at h
      · rename_i hn
        obtain rfl := List.mem_singleton.1 h
        exact hdigit n hn
      · rename_i hn
        rcases List.mem_append.1 h with h | h
        · exact ih (n / 16) (by omega) h
        · obtain rfl := List.mem_singleton.1 h
          exact hdigit (n % 16) (Nat.mod_lt _ (by decide))

theorem plain_ascii (c : Char) : Plain (ascii c) := by
  unfold ascii
  split
  case h_7 =>
    split
    · rename_i h
      exact plain_cons (isControl_of_printable h.1 h.2) plain_nil
    · have hopen : Plain ['\x5c', 'u', '\x7b'] := plain_of_all (by decide)
      have hclose : Plain ['\x7d'] := plain_of_all (by decide)
      exact (hopen.append fun d hd => (mem_toDigits_sixteen hd).1).append hclose
  all_goals exact plain_of_all (by decide)

theorem plain_flatMap_ascii (text : List Char) : Plain (text.flatMap ascii) := by
  intro c hc
  obtain ⟨d, -, hd⟩ := List.mem_flatMap.1 hc
  exact plain_ascii d c hd

end Text

/-! ## Tokens -/

open Text (Plain)

namespace Token.Kind

/-- Whether a token is one that is read somewhere in a text. Other than in a text without faults its name
may be a reserved word. -/
def Occurs : Kind → Prop
  | identifier n => Lexer.isWord n.toList = true
  | symbol s => s ≠ .endOfFile
  | literal (.real x) => x.isFinite = true ∧ x.isNegative = false
  | empty => False
  | _ => True

theorem occurs_of_isWritable {k : Kind} (h : k.isWritable = true) : k.Occurs := by
  cases k with
  | identifier n => exact (Bool.and_eq_true_iff.1 h).1
  | keyword k => trivial
  | symbol s => simpa [isWritable, Occurs] using h
  | literal v =>
      cases v with
      | real x => simpa [isWritable, Occurs] using h
      | _ => trivial
  | empty => cases h

/-- What stands between the angle brackets when a token is listed. -/
def face : Kind → List Char
  | identifier name => name.toList
  | keyword k => k.text.toList
  | symbol s => s.text.toList
  | literal (.integer n) => ['i', 'n', 't', ':', ' '] ++ Nat.toDigits 10 n.toNat
  | literal (.real x) => ['r', 'e', 'a', 'l', ':', ' '] ++ x.chars
  | literal (.string s) => '\x22' :: (s.toList.flatMap Text.ascii ++ ['\x22'])
  | literal (.character c) => '\x27' :: (Text.ascii c ++ ['\x27'])
  | literal (.boolean b) => (Literal.booleanText b).toList
  | empty => ['e', 'm', 'p', 't', 'y']

theorem toList_dump (k : Kind) : k.dump.toList = '<' :: (k.face ++ ['>']) := by
  cases k with
  | literal v => cases v <;> simp [dump, Literal.dump, face, Literal.integerText,
      Numeral.Binary64.text]
  | empty => rfl
  | _ => simp [dump, face]

/-- Whatever a token holds, it is listed as plain text. -/
theorem plain_dump {k : Kind} (hk : k.Occurs) : Plain k.dump.toList := by
  rw [toList_dump]
  suffices hface : Plain k.face from
    Text.plain_cons rfl (hface.append (Text.plain_cons rfl Text.plain_nil))
  cases k with
  | identifier n => exact Text.plain_of_isWord hk
  | keyword k => exact Text.plain_of_isWord (ofWord_keyword k).1
  | symbol s => cases s <;> exact Text.plain_of_all (by decide)
  | empty => exact hk.elim
  | literal v =>
      cases v with
      | integer n =>
          have hlabel : Plain ['i', 'n', 't', ':', ' '] := Text.plain_of_all (by decide)
          refine hlabel.append (Text.plain_of_digits fun c hc => ?_)
          exact Nat.isDigit_of_mem_toDigits (by decide) (by decide) hc
      | real x =>
          have hlabel : Plain ['r', 'e', 'a', 'l', ':', ' '] := Text.plain_of_all (by decide)
          obtain ⟨n, hn, hchars, -⟩ := exists_number_of_real hk.1 (by simp [hk.2])
          exact hlabel.append (hchars ▸ Text.plain_of_shaped hn.shaped)
      | string s =>
          exact Text.plain_cons rfl
            ((Text.plain_flatMap_ascii _).append (Text.plain_cons rfl Text.plain_nil))
      | character c =>
          exact Text.plain_cons rfl
            ((Text.plain_ascii c).append (Text.plain_cons rfl Text.plain_nil))
      | boolean b => exact Text.plain_of_isWord (ofWord_boolean b).1

end Token.Kind

/-- A token that stands in a text occurs there. -/
theorem Lexer.Lexeme.occurs_of_token {c : Char} {rest : List Char} {k : Token.Kind}
    (h : (of c rest).meaning = .token k) : k.Occurs := by
  by_cases hstart : startsWord c = true
  · have hof : of c rest = word c rest := by
      unfold of
      rw [if_pos hstart]
    have hword : isWord (c :: rest.takeWhile continuesWord) = true := by
      rw [isWord, hstart, Bool.true_and, List.all_eq_true]
      exact fun d hd => List.mem_takeWhile_imp hd
    rw [hof] at h
    obtain rfl := Meaning.token.inj h
    unfold wordKind
    split
    · show isWord (String.ofList _).toList = true
      rwa [String.toList_ofList]
    · exact Token.Kind.occurs_of_isWritable (Token.Kind.isWritable_ofWord hword)
  · exact Token.Kind.occurs_of_isWritable (writable_of_not_startsWord hstart rest k h)

/-- All tokens that are read in a text occur there, whether or not there is a fault behind them. -/
theorem Cursor.occurs_of_mem_tokens (c : Cursor) : ∀ t ∈ c.tokens.tokens, t.kind.Occurs := by
  fun_induction tokens c with
  | case1 c d next hpull => simp
  | case2 c t next hpull ht => simp
  | case3 c t next hpull ht ih =>
      refine List.forall_mem_cons.2 ⟨?_, ih⟩
      rcases exists_of_pull_ok hpull with rfl | ⟨c', l, hl, hk, -⟩
      · exact absurd rfl ht
      · obtain ⟨head, rest, -, rfl⟩ := exists_of_lexeme? hl
        exact Lexeme.occurs_of_token hk

end Bucket
