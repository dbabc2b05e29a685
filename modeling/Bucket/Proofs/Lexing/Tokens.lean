/-
# The tokens of a text

Text that is put together from spellings of tokens and blanks is read as those tokens (`Lexes.word`,
`Lexes.blank`), as long as each token is over where the next one begins. Conversely, the tokens of a
text without faults can all be written (`Cursor.isWritable_of_mem_tokens`). A reserved word that is
read as a name is always in front of a fault.
-/
import Bucket.Lexer.Basic
import Bucket.Proofs.Lexing.Spelling

namespace Bucket

open Lexer

/-! ## Reading one token -/

/-- A blank begins a run of blanks. -/
theorem Lexer.Lexeme.of_blank {c : Char} (hc : isBlank c = true) (rest : List Char) :
    of c rest = blanks rest := by
  simp only [isBlank, Bool.or_eq_true, beq_iff_eq] at hc
  rcases hc with ((rfl | rfl) | rfl) | rfl <;> rfl

namespace Cursor

/-- What stands under a cursor is a lexeme of the text there. -/
theorem exists_of_lexeme? {c : Cursor} {l : Lexeme} (h : c.lexeme? = some l) :
    ∃ head rest, c.rest = head :: rest ∧ l = .of head rest := by
  unfold lexeme? at h
  cases hrest : c.rest with
  | nil => simp [hrest] at h
  | cons head rest =>
      rw [hrest] at h
      exact ⟨head, rest, rfl, (Option.some.inj h).symm⟩

/-- Nothing stands under a cursor at the end of the text only. -/
theorem rest_eq_nil_of_lexeme? {c : Cursor} (h : c.lexeme? = none) : c.rest = [] := by
  unfold lexeme? at h
  cases hrest : c.rest with
  | nil => rfl
  | cons head rest => simp [hrest] at h

/-- Passing a lexeme leads behind its characters. -/
theorem pass_append {l : Lexeme} {used : List Char} (p : Position) (head : Char)
    (hmore : l.more = used.length) (behind : List Char) :
    pass ⟨p, head :: (used ++ behind)⟩ l = ⟨p.after (head :: used), behind⟩ := by
  rw [pass, hmore]
  exact skip_length p (head :: used) behind

/-- The end of the file is read at the end of the text. -/
theorem pull_of_end {c : Cursor} (h : c.lexeme? = none) :
    c.pull = (.ok (.endOfFile c.position), c) := by
  rw [pull]
  split
  · rfl
  · rename_i hl
    rw [h] at hl
    contradiction

/-- What stands under the cursor decides what is read. -/
theorem pull_of_lexeme {c : Cursor} {l : Lexeme} (h : c.lexeme? = some l) :
    c.pull = match l.meaning with
      | .token k => (.ok ⟨k, ⟨c.position, (c.pass l).position⟩⟩, c.pass l)
      | .skipped => (c.pass l).pull
      | .fault fault offset => (.error (.lexical fault (c.skip offset).position), c.pass l) := by
  rw [pull]
  split
  · rename_i hnone
    rw [h] at hnone
    contradiction
  · rename_i l' hl'
    obtain rfl : l = l' := Option.some.inj (h.symm.trans hl')
    rfl

/-- A token under the cursor is read. -/
theorem pull_of_token {c : Cursor} {l : Lexeme} {k : Token.Kind} (h : c.lexeme? = some l)
    (hk : l.meaning = .token k) :
    c.pull = (.ok ⟨k, ⟨c.position, (c.pass l).position⟩⟩, c.pass l) := by
  rw [pull_of_lexeme h, hk]

/-- What is skipped under the cursor is passed. -/
theorem pull_of_skipped {c : Cursor} {l : Lexeme} (h : c.lexeme? = some l)
    (hl : l.meaning = .skipped) : c.pull = (c.pass l).pull := by
  rw [pull_of_lexeme h, hl]

/-- A fault under the cursor is found. -/
theorem pull_of_fault {c : Cursor} {l : Lexeme} {fault : LexicalFault} {offset : Nat}
    (h : c.lexeme? = some l) (hl : l.meaning = .fault fault offset) :
    c.pull = (.error (.lexical fault (c.skip offset).position), c.pass l) := by
  rw [pull_of_lexeme h, hl]

/-- Reading a token does not change where the text ends. -/
theorem endPosition_pull (c : Cursor) : c.pull.2.endPosition = c.endPosition := by
  fun_induction pull c with
  | case1 c => rfl
  | case2 c l => exact c.endPosition_skip _
  | case3 c l _ _ ih => exact ih.trans (c.endPosition_skip _)
  | case4 c l => exact c.endPosition_skip _

/-- A token that is read is the end of the file, or one that stands in the text. -/
theorem exists_of_pull_ok {c next : Cursor} {t : Token} (h : c.pull = (.ok t, next)) :
    t = .endOfFile c.endPosition ∨
      ∃ c' l, Cursor.lexeme? c' = some l ∧ l.meaning = .token t.kind ∧ next = c'.pass l := by
  fun_induction pull c with
  | case1 c hl =>
      obtain ⟨ht, -⟩ := Prod.mk.inj h
      left
      rw [endPosition, rest_eq_nil_of_lexeme? hl, Position.after_nil]
      exact (Except.ok.inj ht).symm
  | case2 c l hl k hk =>
      obtain ⟨ht, hnext⟩ := Prod.mk.inj h
      obtain rfl := Except.ok.inj ht
      exact .inr ⟨c, l, hl, hk, hnext.symm⟩
  | case3 c l hl _ ih =>
      have hend : (c.pass l).endPosition = c.endPosition := c.endPosition_skip _
      rw [hend] at ih
      exact ih h
  | case4 c l hl => simp at h

/-- The first token and where it leads decide about all tokens. -/
theorem tokens_eq (c : Cursor) :
    c.tokens = match c.pull with
      | (.error d, _) => ⟨[], .error d⟩
      | (.ok t, next) =>
          if t.isEndOfFile then ⟨[], .ok t.span.start⟩ else next.tokens.cons t := by
  rw [tokens]
  split
  · rename_i h
    rw [h]
  · rename_i h
    rw [h]

/-- Behind a token there are the other ones. -/
theorem tokens_of_pull {c next : Cursor} {t : Token} (h : c.pull = (.ok t, next))
    (ht : t.isEndOfFile = false) : c.tokens = next.tokens.cons t := by
  rw [tokens_eq, h]
  exact if_neg (by simp [ht])

/-- A fault is the end of the tokens. -/
theorem tokens_of_fault {c next : Cursor} {d : Diagnostic} (h : c.pull = (.error d, next)) :
    c.tokens = ⟨[], .error d⟩ := by
  rw [tokens_eq, h]

/-- The end of the file is the end of the tokens. -/
theorem tokens_of_end {c next : Cursor} {t : Token} (h : c.pull = (.ok t, next))
    (ht : t.isEndOfFile = true) : c.tokens = ⟨[], .ok t.span.start⟩ := by
  rw [tokens_eq, h]
  exact if_pos ht

/-- Cursors that read the same read the same tokens. -/
theorem tokens_congr {c c' : Cursor} (h : c.pull = c'.pull) : c.tokens = c'.tokens := by
  rw [tokens_eq, h, ← tokens_eq]

end Cursor

/-- The end of the file is not written. -/
theorem Token.Kind.isEndOfFile_of_isWritable {k : Token.Kind} (hk : k.isWritable = true) :
    k.isEndOfFile = false := by
  cases k with
  | symbol s => cases s <;> first | rfl | simp [isWritable] at hk
  | _ => rfl

/-- The spelling of a token is read as that token where it is over. -/
theorem Cursor.pull_of_spelling {k : Token.Kind} {rest : List Char} (hk : k.isWritable = true)
    (hrest : k.endsBefore rest.head? = true) (p : Position) :
    Cursor.pull ⟨p, k.spelling ++ rest⟩ =
      (.ok ⟨k, ⟨p, p.after k.spelling⟩⟩, ⟨p.after k.spelling, rest⟩) := by
  obtain ⟨c, more, hchars, hlexeme⟩ := Token.Kind.of_spelling hk hrest
  have hpull := Cursor.pull_of_token (c := ⟨p, c :: (more ++ rest)⟩)
    (congrArg some hlexeme) rfl
  rw [Cursor.pass_append p c rfl rest] at hpull
  rw [hchars]
  exact hpull

/-! ## Written text -/

/-- Whether a text is read as tokens of given kinds, wherever it stands. -/
def Lexes (text : List Char) (kinds : List Token.Kind) : Prop :=
  ∀ p : Position, ∃ ts e, Cursor.tokens ⟨p, text⟩ = ⟨ts, .ok e⟩ ∧ ts.map (·.kind) = kinds

namespace Lexes

theorem nil : Lexes [] [] := by
  intro p
  exact ⟨[], p, Cursor.tokens_of_end (Cursor.pull_of_end rfl) rfl, rfl⟩

/-- A token is read in front of text that it is over before. -/
theorem word {k : Token.Kind} {rest : List Char} {kinds : List Token.Kind}
    (hk : k.isWritable = true) (hrest : k.endsBefore rest.head? = true) (h : Lexes rest kinds) :
    Lexes (k.spelling ++ rest) (k :: kinds) := by
  intro p
  obtain ⟨ts, e, hts, hkinds⟩ := h (p.after k.spelling)
  rw [Cursor.tokens_of_pull (Cursor.pull_of_spelling hk hrest p)
    (Token.Kind.isEndOfFile_of_isWritable hk), hts]
  exact ⟨_, e, rfl, congrArg (k :: ·) hkinds⟩

/-- Passing blanks one at a time and passing all of them at once is the same. -/
theorem pull_blank {b : Char} (hb : isBlank b = true) (p : Position) (rest : List Char) :
    Cursor.pull ⟨p, b :: rest⟩ = Cursor.pull ⟨p.advance b, rest⟩ := by
  have hpass : ∀ {d : Char} (hd : isBlank d = true) (q : Position) (rest : List Char),
      Cursor.pull ⟨q, d :: rest⟩ =
        Cursor.pull (Cursor.skip (rest.takeWhile isBlank).length ⟨q.advance d, rest⟩) := by
    intro d hd q rest
    have hlexeme : Cursor.lexeme? ⟨q, d :: rest⟩ = some (.blanks rest) :=
      congrArg some (Lexeme.of_blank hd rest)
    rw [Cursor.pull_of_skipped hlexeme rfl, Cursor.pass, Cursor.skip_succ]
    rfl
  rw [hpass hb]
  cases rest with
  | nil => rfl
  | cons d rest =>
      by_cases hd : isBlank d = true
      · rw [List.takeWhile_cons_of_pos hd, List.length_cons, Cursor.skip_succ, hpass hd]
        rfl
      · rw [List.takeWhile_cons_of_neg hd]
        rfl

/-- Blanks are passed. -/
theorem blank {rest : List Char} {kinds : List Token.Kind} (h : Lexes rest kinds) :
    Lexes (' ' :: rest) kinds := by
  intro p
  rw [Cursor.tokens_congr (pull_blank rfl p rest)]
  exact h _

theorem replicate_blank {rest : List Char} {kinds : List Token.Kind} (n : Nat)
    (h : Lexes rest kinds) : Lexes (List.replicate n ' ' ++ rest) kinds := by
  induction n with
  | zero => exact h
  | succ n ih => exact ih.blank

end Lexes

/-! ## Tokens that were read -/

namespace Token.Kind

/-- A word is a keyword, a truth value, or a name that is that word. -/
theorem ofWord_cases (word : List Char) :
    (∃ k, ofWord word = keyword k) ∨ (∃ b, ofWord word = literal (.boolean b)) ∨
      ofWord word = identifier (String.ofList word) := by
  simp only [ofWord]
  split
  · exact .inl ⟨_, rfl⟩
  · split
    · exact .inr (.inl ⟨_, rfl⟩)
    · exact .inr (.inr rfl)

/-- A word means a token that can be written. -/
theorem isWritable_ofWord {word : List Char} (h : isWord word = true) :
    (ofWord word).isWritable = true := by
  rcases ofWord_cases word with ⟨k, hk⟩ | ⟨b, hb⟩ | hname
  · rw [hk, isWritable]
  · rw [hb, isWritable]
    intro x hx
    simp at hx
  · rw [hname, isWritable, String.toList_ofList, h, hname, Bool.true_and, beq_self_eq_true]

end Token.Kind

/-- A real that was read is not negative. -/
theorem Numeral.Decimal.isNegative_toReal (d : Numeral.Decimal) : d.toReal.isNegative = false := by
  have hsize : ∀ n, n ≤ Numeral.Binary64.infiniteSize →
      (Numeral.Binary64.ofSize n).isNegative = false := by
    intro n hn
    have hlarge : Numeral.Binary64.infiniteSize < Numeral.Binary64.signSize := by decide
    have hsign : Numeral.Binary64.signSize < 2 ^ 64 := by decide
    have hbits : (UInt64.ofNat n).toNat = n := by
      rw [UInt64.toNat_ofNat', Nat.mod_eq_of_lt (by omega)]
    simp only [Numeral.Binary64.isNegative, Numeral.Binary64.ofSize, hbits, decide_eq_false_iff_not]
    omega
  unfold Numeral.Decimal.toReal
  split
  · exact hsize 0 (Nat.zero_le _)
  · split
    · exact hsize _ (Nat.le_refl _)
    · split
      · exact hsize 0 (Nat.zero_le _)
      · split <;> exact hsize _ (Nat.min_le_right _ _)

namespace Lexer

/-- A number means a literal that can be written. -/
theorem Number.isWritable_of_outcome {n : Number} {rest : List Char} {value : Literal}
    (h : n.outcome rest = .ok value) : (Token.Kind.literal value).isWritable = true := by
  unfold Number.outcome at h
  split at h
  · simp at h
  · split at h
    · simp at h
    · split at h
      · simp only at h
        split at h
        · rename_i hfinite
          obtain rfl := Except.ok.inj h
          simp [Token.Kind.isWritable, hfinite, Numeral.Decimal.isNegative_toReal]
        · simp at h
      · split at h
        · obtain rfl := Except.ok.inj h
          rfl
        · simp at h

/-- A character that shares its first byte with one of a word, and is none itself, is a fault. -/
theorem Lexeme.meaning_of_sharesFirstByte {c : Char} (hword : continuesWord c = false)
    (hshares : sharesFirstByte c = true) (rest : List Char) :
    (Lexeme.of c rest).meaning = .fault (.unexpectedCharacter c) 0 := by
  -- The character has more than one byte, so none of the signs is meant.
  have hlarge : ¬ c.toNat < 0x80 := fun h => by
    simp [continuesWord_of_sharesFirstByte h hshares] at hword
  have hstart : startsWord c = false := (Bool.or_eq_false_iff.1 hword).1
  have hdigit : c.isDigit = false := by
    rw [Bool.eq_false_iff]
    intro h
    have : c.toNat ≤ 57 := of_decide_eq_true (Bool.and_eq_true_iff.1 h).2
    omega
  have hne : ∀ d : Char, d.toNat < 0x80 → c ≠ d := by
    rintro d hd rfl
    exact hlarge hd
  have hblank : isBlank c = false := by
    simp [isBlank, hne ' ' (by decide), hne '\t' (by decide), hne '\x0b' (by decide),
      hne '\x0c' (by decide)]
  unfold Lexeme.of
  rw [if_neg (by simp [hstart]), if_neg (by simp [hdigit]), if_neg (by simp [hblank])]
  split <;> first | rfl | exact absurd rfl (hne _ (by decide))

namespace Lexeme

/-- Whether a lexeme is a token only where that token can be written. -/
def Writable (l : Lexeme) : Prop := ∀ k, l.meaning = .token k → k.isWritable = true

theorem writable_sign {s : Symbol} (hs : s ≠ .endOfFile) : (sign s).Writable := by
  intro k hk
  obtain rfl := Meaning.token.inj hk
  simp [Token.Kind.isWritable, hs]

theorem writable_signOrEquals {alone withEquals : Symbol} (halone : alone ≠ .endOfFile)
    (hwith : withEquals ≠ .endOfFile) (rest : List Char) :
    (signOrEquals alone withEquals rest).Writable := by
  unfold signOrEquals
  split
  · intro k hk
    obtain rfl := Meaning.token.inj hk
    simp [Token.Kind.isWritable, hwith]
  · exact writable_sign halone

theorem writable_number (text : List Char) : (number text).Writable := by
  intro k hk
  simp only [number] at hk
  split at hk
  · rename_i value hvalue
    obtain rfl := Meaning.token.inj hk
    exact Number.isWritable_of_outcome hvalue
  · simp at hk

theorem writable_string (rest : List Char) : (string rest).Writable := by
  intro k hk
  unfold string at hk
  split at hk
  · obtain rfl := Meaning.token.inj hk
    rfl
  · simp at hk
  · simp at hk

theorem writable_character (rest : List Char) : (character rest).Writable := by
  intro k hk
  unfold character at hk
  split at hk
  · obtain rfl := Meaning.token.inj hk
    rfl
  · simp at hk

theorem writable_slash (rest : List Char) : (slash rest).Writable := by
  unfold slash
  split
  · simp [Writable]
  · split <;> simp [Writable]
  · exact writable_sign (by decide)

theorem writable_bang (rest : List Char) : (bang rest).Writable := by
  unfold bang
  split
  · intro k hk
    obtain rfl := Meaning.token.inj hk
    rfl
  · simp [Writable]

/-- What is not a word can be written if it is a token. -/
theorem writable_of_not_startsWord {c : Char} (hc : ¬ startsWord c = true) (rest : List Char) :
    (of c rest).Writable := by
  unfold of
  rw [if_neg hc]
  split
  · exact writable_number _
  · split
    · simp [Writable, blanks]
    · split
      case h_2 => exact writable_string rest
      case h_3 => exact writable_character rest
      case h_4 =>
        split
        · exact writable_number _
        · exact writable_sign (by decide)
      case h_5 => exact writable_slash rest
      case h_6 => exact writable_bang rest
      case h_7 => exact writable_signOrEquals (by decide) (by decide) rest
      case h_8 => exact writable_signOrEquals (by decide) (by decide) rest
      case h_9 => exact writable_signOrEquals (by decide) (by decide) rest
      case h_22 => simp [Writable]
      all_goals exact writable_sign (by decide)

/-- A token in a text can be written, or is a name in front of a fault. -/
theorem isWritable_of_token {c : Char} {rest : List Char} {k : Token.Kind}
    (h : (of c rest).meaning = .token k) :
    k.isWritable = true ∨ (∃ n, k = .identifier n) ∧ ∃ d tail,
      rest.drop (of c rest).more = d :: tail ∧
      (of d tail).meaning = .fault (.unexpectedCharacter d) 0 := by
  by_cases hstart : startsWord c = true
  · have hof : of c rest = word c rest := by
      unfold of
      rw [if_pos hstart]
    rw [hof] at h ⊢
    have hk : wordKind (c :: rest.takeWhile continuesWord) (rest.dropWhile continuesWord) = k :=
      Meaning.token.inj h
    unfold wordKind at hk
    split at hk
    · -- Such a word is a name, whatever it spells, and the character behind it is a fault.
      rename_i hshares
      cases htail : rest.dropWhile continuesWord with
      | nil => simp [htail] at hshares
      | cons d tail =>
          have hover := any_head?_dropWhile continuesWord rest
          rw [htail, List.head?_cons, Option.any_some] at hshares hover
          exact .inr ⟨⟨_, hk.symm⟩, d, tail, (drop_length_takeWhile _ _).trans htail,
            meaning_of_sharesFirstByte hover hshares tail⟩
    · left
      rw [← hk]
      refine Token.Kind.isWritable_ofWord ?_
      rw [isWord, hstart, Bool.true_and, List.all_eq_true]
      exact fun d hd => List.mem_takeWhile_imp hd
  · exact .inl (writable_of_not_startsWord hstart rest k h)

/-- No token that stands in a text is the end of the file. -/
theorem isEndOfFile_of_token {c : Char} {rest : List Char} {k : Token.Kind}
    (h : (of c rest).meaning = .token k) : k.isEndOfFile = false := by
  rcases isWritable_of_token h with hw | ⟨⟨n, rfl⟩, -⟩
  · exact Token.Kind.isEndOfFile_of_isWritable hw
  · rfl

end Lexeme

end Lexer

/-- What has a list of tokens has no fault. -/
theorem Tokens.exists_of_toExcept {tokens : Tokens} {ts : List Token}
    (h : tokens.toExcept = .ok ts) : ∃ e, tokens = ⟨ts, .ok e⟩ := by
  obtain ⟨ts', stop⟩ := tokens
  cases stop with
  | error d => cases h
  | ok e =>
      obtain rfl := Except.ok.inj h
      exact ⟨e, rfl⟩

namespace Cursor

/-- The end of the file is only read where it is. -/
theorem eq_endOfFile_endPosition {c next : Cursor} {t : Token} (h : c.pull = (.ok t, next))
    (ht : t.isEndOfFile = true) : t = .endOfFile c.endPosition := by
  rcases exists_of_pull_ok h with rfl | ⟨c', l, hl, hk, rfl⟩
  · rfl
  · obtain ⟨head, rest, -, rfl⟩ := exists_of_lexeme? hl
    rw [Token.isEndOfFile, Lexeme.isEndOfFile_of_token hk] at ht
    cases ht

theorem eq_endOfFile_of_pull {c next : Cursor} {t : Token} (h : c.pull = (.ok t, next))
    (ht : t.isEndOfFile = true) : t = .endOfFile t.span.start := by
  obtain rfl := eq_endOfFile_endPosition h ht
  rfl

/-- The tokens of a text without faults end where the text ends. -/
theorem stop_eq_endPosition {c : Cursor} {e : Position} (h : c.tokens.stop = .ok e) :
    e = c.endPosition := by
  fun_induction tokens c with
  | case1 c d next hpull => cases h
  | case2 c t next hpull ht =>
      obtain rfl := Except.ok.inj h
      rw [eq_endOfFile_endPosition hpull ht]
      rfl
  | case3 c t next hpull ht ih =>
      have hend := c.endPosition_pull
      rw [hpull] at hend
      rw [ih h, hend]

/-- A token in front of no fault can be written, unless it is the end of the file. -/
theorem isWritable_of_pull {c next : Cursor} {t : Token} (h : c.pull = (.ok t, next))
    (ht : ¬ t.isEndOfFile) (hnext : ∀ d c', next.pull ≠ (.error d, c')) :
    t.kind.isWritable = true := by
  rcases exists_of_pull_ok h with rfl | ⟨c', l, hl, hk, rfl⟩
  · exact absurd rfl ht
  · obtain ⟨head, rest, hrest, rfl⟩ := exists_of_lexeme? hl
    rcases Lexeme.isWritable_of_token hk with hw | ⟨-, d, tail, hdrop, hfault⟩
    · exact hw
    · have hlexeme : (c'.pass (Lexeme.of head rest)).lexeme? = some (.of d tail) := by
        rw [lexeme?, pass, skip, hrest, List.drop_succ_cons, hdrop]
      exact absurd (pull_of_fault hlexeme hfault) (hnext _ _)

/-- All tokens of a text without faults can be written. -/
theorem isWritable_of_mem_tokens {c : Cursor} {e : Position} (h : c.tokens.stop = .ok e) :
    ∀ t ∈ c.tokens.tokens, t.kind.isWritable = true := by
  fun_induction tokens c with
  | case1 c d next hpull => simp at h
  | case2 c t next hpull ht => simp
  | case3 c t next hpull ht ih =>
      rintro u hu
      rcases List.mem_cons.1 hu with rfl | hu
      · refine isWritable_of_pull hpull ht fun d c' hfault => ?_
        rw [Tokens.cons, tokens_of_fault hfault] at h
        simp at h
      · exact ih h u hu

end Cursor

/-- A text that is read without faults does not begin with a byte order mark. -/
theorem Lexes.dropByteOrderMark {text : List Char} {kinds : List Token.Kind}
    (h : Lexes text kinds) : Source.dropByteOrderMark text = text := by
  cases text with
  | nil => rfl
  | cons c rest =>
      rw [Source.dropByteOrderMark]
      split
      · -- The mark begins no token, so a text that begins with it has a fault.
        rename_i hc
        obtain ⟨ts, e, hts, -⟩ := h .first
        subst hc
        have hfault : (Lexeme.of Source.byteOrderMark rest).meaning =
            .fault (.unexpectedCharacter Source.byteOrderMark) 0 :=
          Lexeme.meaning_of_sharesFirstByte (by decide +kernel) (by decide +kernel) rest
        rw [Cursor.tokens_of_fault (Cursor.pull_of_fault rfl hfault)] at hts
        simp at hts
      · rfl

end Bucket
