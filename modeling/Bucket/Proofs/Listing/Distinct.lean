/-
# Listed tokens are told apart

The lines that a source is listed as tell which tokens it has. What stands between the angle brackets of a
line begins in another way for words, signs, and each form of literals (`Token.Kind.formOf_face`), and
each of these is told from others of its form: characters in ASCII are a code in which none begins as another
one (`Text.eq_of_ascii_append`), and numbers are read back. Only the newline is listed as a name might
be, which is called `newline` (`Source.kinds_of_listing`).
-/
import Bucket.Proofs.Listing.Agreement

namespace Bucket

open Lexer

/-! ## Characters in ASCII -/

namespace Text

/-- A number is written in base sixteen in one way. -/
theorem eq_of_toDigits_sixteen {m n : Nat} (h : Nat.toDigits 16 m = Nat.toDigits 16 n) : m = n := by
  have hdigit : ∀ a < 16, ∀ b < 16, a.digitChar = b.digitChar → a = b := by decide
  -- By the last digit, and then by those in front of it.
  induction m using Nat.strongRecOn generalizing n with
  | _ m ih =>
      rw [Nat.toDigits_eq_if (by decide), Nat.toDigits_eq_if (n := n) (by decide)] at h
      split at h <;> split at h
      · rename_i hm hn
        exact hdigit m hm n hn (List.singleton_inj.1 h)
      · have := congrArg List.length h
        have := List.length_pos_iff.2 (Nat.toDigits_ne_nil (n := n / 16) (b := 16))
        simp at *
      · have := congrArg List.length h
        have := List.length_pos_iff.2 (Nat.toDigits_ne_nil (n := m / 16) (b := 16))
        simp at *
      · rename_i hm hn
        obtain ⟨hfront, hlast⟩ := List.append_inj' h rfl
        have hdiv := ih (m / 16) (by omega) hfront
        have hmod := hdigit (m % 16) (by omega) (n % 16) (by omega) (List.singleton_inj.1 hlast)
        omega

/-- The letter that stands for a character behind a backslash in ASCII. -/
def asciiLetter? : Char → Option Char
  | '\t' => some 't'
  | '\r' => some 'r'
  | '\n' => some 'n'
  | '\x27' => some '\x27'
  | '\x22' => some '\x22'
  | '\x5c' => some '\x5c'
  | _ => none

/-- The three forms of a character in ASCII. -/
theorem ascii_cases (c : Char) :
    (c ≠ '\x5c' ∧ ascii c = [c]) ∨ (∃ e, asciiLetter? c = some e ∧ ascii c = ['\x5c', e]) ∨
      ascii c = byNumber c := by
  unfold ascii
  split
  case h_7 hbackslash =>
    split
    · exact .inl ⟨hbackslash, rfl⟩
    · exact .inr (.inr rfl)
  all_goals exact .inr (.inl ⟨_, rfl, rfl⟩)

/-- A letter behind a backslash stands for one character, and none of the letters is that in front of
numbers. -/
theorem eq_of_asciiLetter? {c d e : Char} (hc : asciiLetter? c = some e)
    (hd : asciiLetter? d = some e) : e ≠ 'u' ∧ c = d := by
  unfold asciiLetter? at hc hd
  split at hc <;> simp only [Option.some.injEq, reduceCtorEq] at hc <;> subst hc <;>
    split at hd <;> simp_all

/-- Characters by their numbers are told apart, whatever stands behind them. -/
theorem eq_of_byNumber_append {c d : Char} {a b : List Char} (h : byNumber c ++ a = byNumber d ++ b) :
    c = d ∧ a = b := by
  have hbrace : ∀ n : Nat, ∀ x ∈ Nat.toDigits 16 n, (x != '\x7d') = true := by
    intro n x hx
    rw [bne_iff_ne]
    exact (mem_toDigits_sixteen hx).2
  have hinside : Nat.toDigits 16 c.toNat ++ '\x7d' :: a = Nat.toDigits 16 d.toNat ++ '\x7d' :: b := by
    simpa [byNumber] using h
  have hdigits := congrArg (List.takeWhile (· != '\x7d')) hinside
  rw [takeWhile_run (hbrace _) rfl, takeWhile_run (hbrace _) rfl] at hdigits
  have hbehind := congrArg (List.dropWhile (· != '\x7d')) hinside
  rw [dropWhile_run (hbrace _) rfl, dropWhile_run (hbrace _) rfl] at hbehind
  exact ⟨Char.toNat_inj.1 (eq_of_toDigits_sixteen hdigits), (List.cons.inj hbehind).2⟩

/-- A character in ASCII is told from all others, whatever stands behind them. -/
theorem eq_of_ascii_append {c d : Char} {a b : List Char} (h : ascii c ++ a = ascii d ++ b) :
    c = d ∧ a = b := by
  rcases ascii_cases c with ⟨hne, hc⟩ | ⟨e, he, hc⟩ | hc <;>
    rcases ascii_cases d with ⟨hne', hd⟩ | ⟨e', he', hd⟩ | hd <;> rw [hc, hd] at h
  · exact List.cons.inj h
  · exact absurd (List.cons.inj h).1 hne
  · exact absurd (List.cons.inj h).1 hne
  · exact absurd (List.cons.inj h).1.symm hne'
  · obtain ⟨rfl, hrest⟩ := List.cons.inj (List.cons.inj h).2
    exact ⟨(eq_of_asciiLetter? he he').2, hrest⟩
  · have h : e = 'u' := (List.cons.inj (List.cons.inj h).2).1
    exact absurd h (eq_of_asciiLetter? he he).1
  · exact absurd (List.cons.inj h).1.symm hne'
  · have h : 'u' = e' := (List.cons.inj (List.cons.inj h).2).1
    exact absurd h.symm (eq_of_asciiLetter? he' he').1
  · exact eq_of_byNumber_append h

/-- Texts in ASCII are told apart. -/
theorem eq_of_flatMap_ascii {s t : List Char} (h : s.flatMap ascii = t.flatMap ascii) : s = t := by
  have hne : ∀ c, ascii c ≠ [] := by
    intro c
    rcases ascii_cases c with ⟨-, hc⟩ | ⟨e, -, hc⟩ | hc <;> simp [hc, byNumber]
  induction s generalizing t with
  | nil =>
      cases t with
      | nil => rfl
      | cons d t => exact absurd (List.append_eq_nil_iff.1 h.symm).1 (hne d)
  | cons c s ih =>
      cases t with
      | nil => exact absurd (List.append_eq_nil_iff.1 h).1 (hne c)
      | cons d t =>
          rw [List.flatMap_cons, List.flatMap_cons] at h
          obtain ⟨rfl, hrest⟩ := eq_of_ascii_append h
          rw [ih hrest]

end Text

/-! ## Numbers -/

theorem UInt64.eq_of_toDigits {m n : UInt64}
    (h : Nat.toDigits 10 m.toNat = Nat.toDigits 10 n.toNat) : m = n := by
  have hvalue := congrArg (Nat.ofDigitChars 10 · 0) h
  simp only [Nat.ofDigitChars_ten_toDigits] at hvalue
  exact UInt64.toNat_inj.1 hvalue

/-- Finite reals without sign are told apart by their texts, because those are read back. -/
theorem Numeral.Binary64.eq_of_chars {x y : Binary64} (hx : x.isFinite) (hy : y.isFinite)
    (hxsign : ¬ x.isNegative) (hysign : ¬ y.isNegative) (h : x.chars = y.chars) : x = y := by
  obtain ⟨m, hm, hmchars, -, -, hmvalue⟩ := exists_number_of_real hx hxsign
  obtain ⟨n, hn, hnchars, -, -, hnvalue⟩ := exists_number_of_real hy hysign
  have hread : readNumber (m.chars ++ []) = (m, []) := readNumber_chars hm rfl
  rw [hmchars, h, ← hnchars, readNumber_chars hn rfl] at hread
  rw [← hmvalue, ← hnvalue, (Prod.mk.inj hread).1]

/-! ## Tokens -/

/-- Every symbol but the end of the file. -/
def Symbol.visible : List Symbol :=
  [.openParenthesis, .closeParenthesis, .openBracket, .closeBracket, .plus, .minus, .asterisk, .slash,
    .caret, .percent, .ampersand, .equals, .doubleEquals, .bangEquals, .greater, .greaterOrEqual,
    .lesser, .lesserOrEqual, .period, .comma, .colon, .newline]

theorem Symbol.mem_visible {s : Symbol} (hs : s ≠ .endOfFile) : s ∈ visible := by
  cases s <;> first | exact absurd rfl hs | decide

/-- Symbols are told apart by their names. -/
theorem Symbol.eq_of_text {s t : Symbol} (hs : s ≠ .endOfFile) (ht : t ≠ .endOfFile)
    (h : s.text.toList = t.text.toList) : s = t := by
  have hall : ∀ s ∈ visible, ∀ t ∈ visible, s.text.toList = t.text.toList → s = t := by
    decide +kernel
  exact hall s (mem_visible hs) t (mem_visible ht) h

namespace Token.Kind

/-- The forms of what stands between the angle brackets of a listed token. -/
inductive Form where
  | word
  | sign
  | integer
  | real
  | string
  | character
deriving DecidableEq

/-- The form of a token. The newline is listed as a word. -/
def form : Kind → Form
  | symbol .newline => .word
  | symbol _ => .sign
  | literal (.integer _) => .integer
  | literal (.real _) => .real
  | literal (.string _) => .string
  | literal (.character _) => .character
  | _ => .word

/-- The form of a text between angle brackets, by how it begins. -/
def formOf : List Char → Form
  | '\x22' :: _ => .string
  | '\x27' :: _ => .character
  | 'i' :: 'n' :: 't' :: ':' :: _ => .integer
  | 'r' :: 'e' :: 'a' :: 'l' :: ':' :: _ => .real
  | c :: _ => if startsWord c then .word else .sign
  | [] => .sign

/-- Words have the form of words: neither quotes nor colons stand in them. -/
theorem formOf_word {word : List Char} (h : Lexer.isWord word = true) : formOf word = .word := by
  have hcolon : continuesWord ':' = false := by decide +kernel
  have hstring : startsWord '\x22' = false := by decide +kernel
  have hcharacter : startsWord '\x27' = false := by decide +kernel
  unfold formOf
  split
  · simp [Lexer.isWord, hstring] at h
  · simp [Lexer.isWord, hcharacter] at h
  · simp [Lexer.isWord, hcolon] at h
  · simp [Lexer.isWord, hcolon] at h
  · exact if_pos (Bool.and_eq_true_iff.1 h).1
  · cases h

/-- The form of a listed token can be seen. -/
theorem formOf_face {k : Kind} (hk : k.Occurs) : formOf k.face = k.form := by
  cases k with
  | identifier n => exact formOf_word hk
  | keyword k => exact formOf_word (ofWord_keyword k).1
  | symbol s =>
      cases s with
      | endOfFile => exact absurd rfl hk
      | _ => decide +kernel
  | empty => exact hk.elim
  | literal v =>
      cases v with
      | boolean b => exact formOf_word (ofWord_boolean b).1
      | _ => rfl

/-- A token as it is listed: a newline as the name for it. -/
def shown : Kind → Kind
  | symbol .newline => identifier "newline"
  | k => k

theorem shown_of_ne {k : Kind} (h : k ≠ symbol .newline) : k.shown = k := by
  unfold shown
  split
  · exact absurd rfl h
  · rfl

theorem dump_shown (k : Kind) : k.shown.dump = k.dump := by
  cases k with
  | symbol s => cases s <;> rfl
  | _ => rfl

/-- Words mean the tokens that they are listed for. -/
theorem ofWord_face {k : Kind} (hk : k.isWritable = true) (hform : k.form = .word) :
    ofWord k.face = k.shown := by
  cases k with
  | identifier n => exact eq_of_beq (Bool.and_eq_true_iff.1 hk).2
  | keyword k => exact (ofWord_keyword k).2
  | symbol s =>
      cases s with
      | newline => decide +kernel
      | _ => cases hform
  | empty => cases hk
  | literal v =>
      cases v with
      | boolean b => exact (ofWord_boolean b).2
      | _ => cases hform

theorem exists_of_form_sign {k : Kind} (h : k.form = .sign) : ∃ s, k = symbol s := by
  cases k with
  | symbol s => exact ⟨s, rfl⟩
  | literal v => cases v <;> cases h
  | _ => cases h

/-- What has the form of a literal is one. -/
theorem exists_of_form_literal {k : Kind} (hword : k.form ≠ .word) (hsign : k.form ≠ .sign) :
    ∃ v, k = literal v := by
  cases k with
  | literal v => exact ⟨v, rfl⟩
  | symbol s => cases s <;> first | exact absurd rfl hword | exact absurd rfl hsign
  | _ => exact absurd rfl hword

/-- Literals that are no truth values are told apart. -/
theorem eq_of_face_literal {v w : Literal} (hv : (literal v).isWritable = true)
    (hw : (literal w).isWritable = true) (hform : (literal v).form = (literal w).form)
    (hword : (literal v).form ≠ .word) (h : (literal v).face = (literal w).face) : v = w := by
  cases v with
  | integer m =>
      cases w with
      | integer n => rw [UInt64.eq_of_toDigits (List.append_cancel_left h)]
      | _ => cases hform
  | real x =>
      cases w with
      | real y =>
          simp only [isWritable, Bool.and_eq_true, Bool.not_eq_true'] at hv hw
          rw [Numeral.Binary64.eq_of_chars hv.1 hw.1 (by simp [hv.2]) (by simp [hw.2])
            (List.append_cancel_left h)]
      | _ => cases hform
  | string s =>
      cases w with
      | string t =>
          have hchars := List.append_cancel_right (List.cons.inj h).2
          rw [String.toList_inj.1 (Text.eq_of_flatMap_ascii hchars)]
      | _ => cases hform
  | character c =>
      cases w with
      | character d => rw [(Text.eq_of_ascii_append (List.cons.inj h).2).1]
      | _ => cases hform
  | boolean b => exact absurd rfl hword

/-- Tokens that a text can hold are told apart by how they are listed, up to the newline. -/
theorem shown_eq_of_face {a b : Kind} (ha : a.isWritable = true) (hb : b.isWritable = true)
    (h : a.face = b.face) : a.shown = b.shown := by
  have hform : a.form = b.form := by
    rw [← formOf_face (occurs_of_isWritable ha), h, formOf_face (occurs_of_isWritable hb)]
  by_cases hword : a.form = .word
  · rw [← ofWord_face ha hword, h, ofWord_face hb (hform ▸ hword)]
  · by_cases hsign : a.form = .sign
    · obtain ⟨s, rfl⟩ := exists_of_form_sign hsign
      obtain ⟨t, rfl⟩ := exists_of_form_sign (hform ▸ hsign)
      rw [Symbol.eq_of_text (occurs_of_isWritable ha) (occurs_of_isWritable hb) h]
    · obtain ⟨v, rfl⟩ := exists_of_form_literal hword hsign
      obtain ⟨w, rfl⟩ := exists_of_form_literal (hform ▸ hword) (hform ▸ hsign)
      rw [eq_of_face_literal ha hb hform hword h]

theorem dump_eq_iff {a b : Kind} (ha : a.isWritable = true) (hb : b.isWritable = true) :
    a.dump = b.dump ↔ a.shown = b.shown := by
  constructor
  · intro h
    have hbrackets := congrArg String.toList h
    rw [toList_dump, toList_dump] at hbrackets
    exact shown_eq_of_face ha hb (List.append_cancel_right (List.cons.inj hbrackets).2)
  · intro h
    rw [← dump_shown a, h, dump_shown]

/-- Tokens are listed alike where they are the same, or one is the newline and the other its name. -/
theorem shown_eq_iff (a b : Kind) :
    a.shown = b.shown ↔ a = b ∨ (a = symbol .newline ∧ b = identifier "newline") ∨
      (a = identifier "newline" ∧ b = symbol .newline) := by
  by_cases ha : a = symbol .newline <;> by_cases hb : b = symbol .newline
  · simp [ha, hb]
  · rw [shown_of_ne hb, ha]
    simp [shown, hb, eq_comm]
  · rw [shown_of_ne ha, hb]
    simp [shown, ha]
  · rw [shown_of_ne ha, shown_of_ne hb]
    simp [ha, hb]

end Token.Kind

/-! ## Sources -/

/-- Sources are listed alike where their tokens are. -/
theorem Command.lex_out_eq_iff {a b : Source} :
    (lex false a).out = (lex false b).out ↔
      a.tokens.tokens.map (·.kind.dump) = b.tokens.tokens.map (·.kind.dump) := by
  constructor
  · intro h
    have ha := splitOn_listing a.cursor.occurs_of_mem_tokens false
    have hb := splitOn_listing b.cursor.occurs_of_mem_tokens false
    have hlines : Lexer.listing false a.tokens.tokens = Lexer.listing false b.tokens.tokens := h
    rw [show a.cursor.tokens = a.tokens from rfl, hlines] at ha
    have hmap := List.append_cancel_right (ha.symm.trans hb)
    rw [← List.map_inj_right (fun _ _ => String.toList_inj.1), List.map_map, List.map_map]
    exact hmap
  · intro h
    have hlines := congrArg (fun dumps => String.join (dumps.map (· ++ "\n"))) h
    rw [List.map_map, List.map_map] at hlines
    exact hlines

/-- The listing of a text without faults tells its tokens. Two such texts are listed alike exactly when
they have the same number of tokens, and at each index tokens of the same kind with the same value, except
that one may be a newline where the other is the name `newline`. -/
theorem Source.kinds_of_listing {a b : Source} {ts us : List Token}
    (ha : a.tokens.toExcept = .ok ts) (hb : b.tokens.toExcept = .ok us) :
    (Command.lex false a).out = (Command.lex false b).out ↔
      ts.length = us.length ∧ ∀ (i : Nat) (t u : Token), ts[i]? = some t → us[i]? = some u →
        t.kind = u.kind ∨ (t.kind = .symbol .newline ∧ u.kind = .identifier "newline") ∨
          (t.kind = .identifier "newline" ∧ u.kind = .symbol .newline) := by
  have hwritable : ∀ {s : Source} {ts : List Token}, s.tokens.toExcept = .ok ts →
      s.tokens.tokens = ts ∧ ∀ t ∈ ts, t.kind.isWritable = true := by
    intro s ts hs
    obtain ⟨e, htokens⟩ := Tokens.exists_of_toExcept hs
    have hall := Cursor.isWritable_of_mem_tokens (c := s.cursor) (congrArg Tokens.stop htokens)
    rw [show s.cursor.tokens = ⟨ts, .ok e⟩ from htokens] at hall
    exact ⟨by rw [htokens], hall⟩
  obtain ⟨hats, hts⟩ := hwritable ha
  obtain ⟨hbus, hus⟩ := hwritable hb
  rw [Command.lex_out_eq_iff, hats, hbus]
  constructor
  · intro h
    refine ⟨by simpa using congrArg List.length h, fun i t u ht hu => ?_⟩
    have hdump := congrArg (·[i]?) h
    simp only [List.getElem?_map, ht, hu, Option.map_some, Option.some.injEq] at hdump
    rw [← Token.Kind.shown_eq_iff]
    exact (Token.Kind.dump_eq_iff (hts t (List.mem_of_getElem? ht))
      (hus u (List.mem_of_getElem? hu))).1 hdump
  · rintro ⟨hlength, hkinds⟩
    apply List.ext_getElem (by simpa using hlength)
    intro i hi hi'
    simp only [List.length_map] at hi hi'
    have hkind := hkinds i _ _ (List.getElem?_eq_getElem hi) (List.getElem?_eq_getElem hi')
    rw [List.getElem_map, List.getElem_map, Token.Kind.dump_eq_iff (hts _ (List.getElem_mem hi))
      (hus _ (List.getElem_mem hi')), Token.Kind.shown_eq_iff]
    exact hkind

/-- A string of quotes and brackets, numbers, and a name in place of a newline. -/
theorem Source.kinds_of_listing_newline :
    let a := ofText "a" "x '\\n' 1e2 12\n\"\\\">\""
    let b := ofText "b" "x /* */ '\n' 100. 012 newline \"\\\">\""
    ∃ ts us, a.tokens.toExcept = .ok ts ∧ b.tokens.toExcept = .ok us ∧
      (Command.lex false a).out = (Command.lex false b).out ∧ ts.length = us.length ∧
      ∀ (i : Nat) (t u : Token), ts[i]? = some t → us[i]? = some u →
        t.kind = u.kind ∨ (t.kind = .symbol .newline ∧ u.kind = .identifier "newline") ∨
          (t.kind = .identifier "newline" ∧ u.kind = .symbol .newline) := by
  intro a b
  have hts : a.tokens.toExcept = .ok a.tokens.tokens := by decide +kernel
  have hus : b.tokens.toExcept = .ok b.tokens.tokens := by decide +kernel
  have hlisted : (Command.lex false a).out = (Command.lex false b).out := by decide +kernel
  exact ⟨_, _, hts, hus, hlisted, (kinds_of_listing hts hus).1 hlisted⟩

end Bucket
