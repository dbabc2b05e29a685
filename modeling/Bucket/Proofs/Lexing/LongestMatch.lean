/-
# Longest match

What a text can begin with is told here as a table of patterns (`Lexer.Pattern.Matches`), apart from how
a cursor looks for them. Of all the patterns that match, the one with the most characters decides, and a
word that is reserved is preferred to a name (`Lexer.Pattern.Longest`). This is what stands under a
cursor (`Lexer.Pattern.Longest.lexeme?_eq`), with one exception: a reserved word is overlooked, and read
as a name, in front of a character that belongs to no word but shares its first byte with one that does.
Words, signs, slashes and points are read accordingly, and no other character can be
(`Cursor.pull_longest`).
-/
import Bucket.Proofs.Lexing.Numeral
import Bucket.Proofs.Lexing.Spaced
import Mathlib.Data.Nat.SuccPred

namespace Bucket

namespace Lexer

variable {word behind text : List Char}

/-! ## Words -/

/-- What a word means: the keyword or the truth value that is written like the whole of it, and a name
if there is none. -/
inductive WordMeans : List Char → Token.Kind → Prop where
  | keyword (k : Keyword) : WordMeans k.text.toList (.keyword k)
  | boolean (b : Bool) : WordMeans (Literal.booleanText b).toList (.literal (.boolean b))
  | name {word : List Char} : (∀ k : Keyword, word ≠ k.text.toList) →
      (∀ b, word ≠ (Literal.booleanText b).toList) → WordMeans word (.identifier (String.ofList word))

/-- What a word means is what it is read as. -/
theorem WordMeans.ofWord_eq {kind : Token.Kind} (h : WordMeans word kind) :
    Token.Kind.ofWord word = kind := by
  cases h with
  | keyword k => exact (Token.Kind.ofWord_keyword k).2
  | boolean b => exact (Token.Kind.ofWord_boolean b).2
  | name hkeyword hboolean =>
      have hname := Token.Kind.ofWord_of_ne (n := String.ofList word)
        (fun k hk => hkeyword k (by rw [← hk, String.toList_ofList]))
        fun b hb => hboolean b (by rw [← hb, String.toList_ofList])
      rwa [String.toList_ofList] at hname

/-- Every word means something. -/
theorem exists_wordMeans (word : List Char) : ∃ kind, WordMeans word kind := by
  by_cases hkeyword : ∃ k : Keyword, word = k.text.toList
  · obtain ⟨k, rfl⟩ := hkeyword
    exact ⟨_, .keyword k⟩
  by_cases hboolean : ∃ b, word = (Literal.booleanText b).toList
  · obtain ⟨b, rfl⟩ := hboolean
    exact ⟨_, .boolean b⟩
  · exact ⟨_, .name (not_exists.1 hkeyword) (not_exists.1 hboolean)⟩

/-- Whether a word is the longest one that a text begins with. -/
structure LongestWord (word text : List Char) : Prop where
  here : word <+: text
  isWord : isWord word = true
  longest : ∀ other, other <+: text → Lexer.isWord other = true → other <+: word

/-- A text begins with one longest word at most. -/
theorem LongestWord.unique {word' : List Char} (h : LongestWord word text)
    (h' : LongestWord word' text) : word = word' := by
  have hle := h'.longest word h.here h.isWord
  have hge := h.longest word' h'.here h'.isWord
  exact hle.eq_of_length (Nat.le_antisymm hle.length_le hge.length_le)

/-- A word goes on with the characters that may follow in one. -/
theorem isWord_append {more : List Char} (hword : isWord word = true) :
    isWord (word ++ more) = more.all continuesWord := by
  cases word with
  | nil => cases hword
  | cons c front =>
      obtain ⟨hstart, hfront⟩ := Bool.and_eq_true_iff.1 hword
      rw [List.cons_append, isWord, List.all_append, hstart, hfront, Bool.true_and, Bool.true_and]

/-- A word is the longest one where the next character does not go on with it. -/
theorem longestWord_append (word behind : List Char) (hword : isWord word = true)
    (hover : behind.head?.any continuesWord = false) : LongestWord word (word ++ behind) := by
  refine ⟨List.prefix_append _ _, hword, fun longer hlonger hlongerWord => ?_⟩
  rcases List.prefix_or_prefix_of_prefix hlonger (List.prefix_append word behind) with h | ⟨more, rfl⟩
  · exact h
  rw [isWord_append hword] at hlongerWord
  cases more with
  | nil => simp
  | cons c more =>
      obtain ⟨after, hafter⟩ := (List.prefix_append_right_inj word).1 hlonger
      rw [List.all_cons, Bool.and_eq_true] at hlongerWord
      rw [← hafter, List.cons_append, List.head?_cons, Option.any_some, hlongerWord.1] at hover
      cases hover

/-! ## Patterns -/

/-- The patterns of what a text can begin with. Numbers, literals in quotes and block comments are known
by how they begin. -/
inductive Pattern where
  | name
  | keyword (keyword : Keyword)
  | boolean (value : Bool)
  | symbol (symbol : Symbol)
  | digit
  | pointAndDigit
  | quote
  | singleQuote
  | bang
  | lineComment
  | blockComment
  | blanks

namespace Pattern

/-- Whether a pattern is the spelling of one word that would be a name. -/
def isReserved : Pattern → Bool
  | keyword _ | boolean _ => true
  | _ => false

/-- The words that a pattern matches. -/
inductive Matches : Pattern → List Char → Prop where
  | name {word : List Char} : isWord word = true → Matches name word
  | keyword (k : Keyword) : Matches (keyword k) k.text.toList
  | boolean (b : Bool) : Matches (boolean b) (Literal.booleanText b).toList
  | symbol {s : Symbol} : s ≠ .endOfFile → Matches (symbol s) (Token.Kind.symbol s).spelling
  | digit {d : Char} : d.isDigit = true → Matches digit [d]
  | pointAndDigit {d : Char} : d.isDigit = true → Matches pointAndDigit ['.', d]
  | quote : Matches quote ['\x22']
  | singleQuote : Matches singleQuote ['\x27']
  | bang : Matches bang ['!']
  | lineComment {line : List Char} : '\n' ∉ line → Matches lineComment ('/' :: '/' :: line)
  | blockComment : Matches blockComment ['/', '*']
  | blanks {run : List Char} : run ≠ [] → (∀ b ∈ run, isBlank b = true) → Matches blanks run

/-- Whether a character is the first one of a word that a pattern matches. -/
def Begins (pat : Pattern) (c : Char) : Prop := ∃ more, pat.Matches (c :: more)

/-- What stands where a pattern matches a word, in front of other text. -/
def lexeme (word behind : List Char) : Pattern → Lexeme
  | name => ⟨.token (.identifier (String.ofList word)), word.length - 1⟩
  | keyword k => ⟨.token (.keyword k), word.length - 1⟩
  | boolean b => ⟨.token (.literal (.boolean b)), word.length - 1⟩
  | symbol s => ⟨.token (.symbol s), word.length - 1⟩
  | digit | pointAndDigit => .number (word ++ behind)
  | quote => .string behind
  | singleQuote => .character behind
  | bang => ⟨.fault .loneBang word.length, word.length - 1⟩
  | lineComment | blanks => ⟨.skipped, word.length - 1⟩
  | blockComment => .slash ('*' :: behind)

variable {pat : Pattern}

/-- A name is matched, and so is every word that is reserved. -/
theorem Matches.isWord (h : pat.Matches word) (hpat : pat = .name ∨ pat.isReserved = true) :
    Lexer.isWord word = true := by
  cases h with
  | name hword => exact hword
  | keyword k => exact (Token.Kind.ofWord_keyword k).1
  | boolean b => exact (Token.Kind.ofWord_boolean b).1
  | _ => simp [isReserved] at hpat

/-- A character that a pattern begins with is matched by one alone. -/
theorem Begins.exists_matches {c : Char} (h : pat.Begins c) : ∃ other : Pattern, other.Matches [c] := by
  obtain ⟨more, h⟩ := h
  rcases eq_or_ne more [] with rfl | hmore
  · exact ⟨pat, h⟩
  have hname : Lexer.isWord (c :: more) = true → ∃ other : Pattern, other.Matches [c] := by
    intro hword
    have hstart : startsWord c = true := (Bool.and_eq_true_iff.1 hword).1
    exact ⟨.name, .name (Bool.and_eq_true_iff.2 ⟨hstart, rfl⟩)⟩
  generalize hword : c :: more = word at h
  cases h with
  | name h => exact hname (hword ▸ h)
  | keyword k => exact hname (hword ▸ (Token.Kind.ofWord_keyword k).1)
  | boolean b => exact hname (hword ▸ (Token.Kind.ofWord_boolean b).1)
  | @symbol s hs =>
      obtain rfl : c = ((Token.Kind.symbol s).spelling).head! := by rw [← hword]; rfl
      cases s with
      | endOfFile => exact absurd rfl hs
      | doubleEquals => exact ⟨_, .symbol (s := .equals) (by decide)⟩
      | bangEquals => exact ⟨_, .bang⟩
      | greaterOrEqual => exact ⟨_, .symbol (s := .greater) (by decide)⟩
      | lesserOrEqual => exact ⟨_, .symbol (s := .lesser) (by decide)⟩
      | _ => exact ⟨_, .symbol hs⟩
  | pointAndDigit =>
      obtain ⟨rfl, -⟩ := List.cons.inj hword
      exact ⟨_, .symbol (s := .period) (by decide)⟩
  | lineComment | blockComment =>
      obtain ⟨rfl, -⟩ := List.cons.inj hword
      exact ⟨_, .symbol (s := .slash) (by decide)⟩
  | blanks _ hrun =>
      have hc : isBlank c = true := hrun c (hword ▸ List.mem_cons_self)
      exact ⟨_, .blanks (List.cons_ne_nil c []) fun b hb => by rwa [List.mem_singleton.1 hb]⟩
  | digit | quote | singleQuote | bang => exact absurd (List.cons.inj hword).2 hmore

/-! ## The longest match -/

/-- Whether a pattern with a word that it matches is what decides in front of other text: no word that
is matched there is longer, and where a reserved word is matched the name is not taken for it. -/
structure Longest (pat : Pattern) (word behind : List Char) : Prop where
  here : pat.Matches word
  longest : ∀ (other : Pattern) (longer : List Char), longer <+: word ++ behind →
    other.Matches longer → longer.length ≤ word.length
  reserved : pat = .name → ∀ other : Pattern, other.Matches word → other = .name

/-- Where a pattern matches, one decides. -/
theorem exists_longest {text : List Char} (h : ∃ (pat : Pattern) (word : List Char),
    word <+: text ∧ pat.Matches word) :
    ∃ (pat : Pattern) (word behind : List Char), text = word ++ behind ∧ pat.Longest word behind := by
  let lengths : Set Nat :=
    {n | ∃ (pat : Pattern) (word : List Char), word <+: text ∧ pat.Matches word ∧ word.length = n}
  obtain ⟨pat, word, hword, hpat⟩ := h
  have hnonempty : lengths.Nonempty := ⟨_, pat, word, hword, hpat, rfl⟩
  have hbounded : BddAbove lengths := by
    refine ⟨text.length, ?_⟩
    rintro n ⟨_, word, hword, -, rfl⟩
    exact hword.length_le
  obtain ⟨n, ⟨pat, word, ⟨behind, rfl⟩, hpat, rfl⟩, hgreatest⟩ :=
    hbounded.exists_isGreatest_of_nonempty hnonempty
  have hlongest : ∀ (other : Pattern) (longer : List Char), longer <+: word ++ behind →
      other.Matches longer → longer.length ≤ word.length := by
    intro other longer hlonger hother
    exact hgreatest ⟨other, longer, hlonger, hother, rfl⟩
  by_cases hother : ∃ other : Pattern, other.Matches word ∧ other ≠ .name
  · obtain ⟨other, hother, hne⟩ := hother
    exact ⟨other, word, behind, rfl, hother, hlongest, fun h => absurd h hne⟩
  · refine ⟨pat, word, behind, rfl, hpat, hlongest, fun _ other h => ?_⟩
    by_contra hne
    exact hother ⟨other, h, hne⟩

namespace Longest

/-- No pattern goes on with the longest match. -/
theorem any_eq_false (h : pat.Longest word behind) (other : Pattern) {q : Char → Bool}
    (hother : ∀ c, q c = true → other.Matches (word ++ [c])) : behind.head?.any q = false := by
  cases behind with
  | nil => rfl
  | cons c after =>
      rw [List.head?_cons, Option.any_some, Bool.eq_false_iff]
      intro hc
      have hle := h.longest other (word ++ [c]) ⟨after, by simp⟩ (hother c hc)
      rw [List.length_append, List.length_singleton] at hle
      omega

/-- A character that would make a longer match does not follow. -/
theorem head?_ne (h : pat.Longest word behind) {c : Char} {other : Pattern}
    (hother : other.Matches (word ++ [c])) : behind.head? ≠ some c := by
  intro hc
  have hany : behind.head?.any (· == c) = false :=
    h.any_eq_false other fun d hd => by rwa [beq_iff_eq.1 hd]
  simp [hc] at hany

/-- Behind a word that is the longest match no word goes on. -/
theorem any_continuesWord (h : pat.Longest word behind) (hword : isWord word = true) :
    behind.head?.any continuesWord = false := by
  refine h.any_eq_false .name fun c hc => .name ?_
  rw [isWord_append hword]
  simpa using hc

/-- A symbol that is the longest match is over. -/
theorem endsBefore {s : Symbol} (h : (symbol s).Longest word behind) :
    (Token.Kind.symbol s).endsBefore behind.head? = true := by
  have hword : word = (Token.Kind.symbol s).spelling := by
    cases h.here
    rfl
  subst hword
  cases s with
  | equals => exact bne_iff_ne.2 (h.head?_ne (.symbol (s := .doubleEquals) (by decide)))
  | lesser => exact bne_iff_ne.2 (h.head?_ne (.symbol (s := .lesserOrEqual) (by decide)))
  | greater => exact bne_iff_ne.2 (h.head?_ne (.symbol (s := .greaterOrEqual) (by decide)))
  | slash =>
      have hline := bne_iff_ne.2 (h.head?_ne (.lineComment List.not_mem_nil))
      have hblock := bne_iff_ne.2 (h.head?_ne .blockComment)
      exact Bool.and_eq_true_iff.2 ⟨hline, hblock⟩
  | period =>
      have hperiod : (symbol .period).Longest ['.'] behind := h
      have hdigit : behind.head?.any Char.isDigit = false :=
        hperiod.any_eq_false .pointAndDigit fun c hc => .pointAndDigit hc
      show (!behind.head?.any Char.isDigit) = true
      rw [hdigit, Bool.not_false]
  | _ => rfl

/-! ## What stands where a pattern is the longest -/

/-- A word that is the longest match is read up to its end. -/
theorem lexeme?_word (h : pat.Longest word behind) (hword : isWord word = true) (p : Position) :
    (Cursor.mk p (word ++ behind)).lexeme? =
      some ⟨.token (Lexeme.wordKind word behind), word.length - 1⟩ := by
  cases word with
  | nil => cases hword
  | cons c more => exact congrArg some (Lexeme.of_run hword (h.any_continuesWord hword))

/-- What stands where the longest match is a name. -/
theorem lexeme?_name (h : name.Longest word behind) (p : Position) :
    (Cursor.mk p (word ++ behind)).lexeme? = some (name.lexeme word behind) := by
  have hword : isWord word = true := h.here.isWord (.inl rfl)
  -- No reserved word is written like this.
  have hkind : Token.Kind.ofWord word = .identifier (String.ofList word) := by
    refine WordMeans.ofWord_eq (.name ?_ ?_)
    · rintro k rfl
      cases h.reserved rfl _ (.keyword k)
    · rintro b rfl
      cases h.reserved rfl _ (.boolean b)
  rw [h.lexeme?_word hword p, Lexeme.wordKind, hkind, ite_self, lexeme]

/-- What stands where the longest match is a reserved word. -/
theorem lexeme?_reserved (h : pat.Longest word behind) (hpat : pat.isReserved = true) (p : Position) :
    (Cursor.mk p (word ++ behind)).lexeme? =
      some (if behind.head?.any sharesFirstByte then name.lexeme word behind
        else pat.lexeme word behind) := by
  rw [h.lexeme?_word (h.here.isWord (.inr hpat)) p, Lexeme.wordKind]
  split
  · rfl
  · cases h.here with
    | keyword k => rw [(Token.Kind.ofWord_keyword k).2, lexeme]
    | boolean b => rw [(Token.Kind.ofWord_boolean b).2, lexeme]
    | _ => cases hpat

/-- What stands where the longest match is a symbol. -/
theorem lexeme?_symbol {s : Symbol} (h : (symbol s).Longest word behind) (p : Position) :
    (Cursor.mk p (word ++ behind)).lexeme? = some ((symbol s).lexeme word behind) := by
  have hends := h.endsBefore
  cases h.here with
  | symbol hs =>
      obtain ⟨c, more, hspelling, hof⟩ := Token.Kind.of_spelling_symbol hs hends
      rw [hspelling]
      exact congrArg some hof

/-- What stands where the longest match begins a number. -/
theorem lexeme?_number (h : pat.Longest word behind) (hpat : pat = .digit ∨ pat = .pointAndDigit)
    (p : Position) : (Cursor.mk p (word ++ behind)).lexeme? = some (.number (word ++ behind)) := by
  cases h.here with
  | digit hd => exact StartsNumber.lexeme? (.digit hd)
  | pointAndDigit hd => exact StartsNumber.lexeme? (.point hd)
  | _ => simp at hpat

/-- What stands where the longest match is a line comment. -/
theorem lexeme?_lineComment (h : lineComment.Longest word behind) (p : Position) :
    (Cursor.mk p (word ++ behind)).lexeme? = some (lineComment.lexeme word behind) := by
  have hend : behind.head?.any (· != '\n') = false := by
    refine h.any_eq_false .lineComment fun c hc => ?_
    cases h.here with
    | @lineComment line hline =>
        have hlonger : '\n' ∉ line ++ [c] := by
          intro hmem
          rcases List.mem_append.1 hmem with hmem | hmem
          · exact hline hmem
          · exact bne_iff_ne.1 hc (List.mem_singleton.1 hmem).symm
        exact .lineComment hlonger
  cases h.here with
  | @lineComment line hline =>
      have hrun : ∀ c ∈ line, (c != '\n') = true := by
        intro c hc
        exact bne_iff_ne.2 fun h => hline (h ▸ hc)
      have htake : (line ++ behind).takeWhile (· != '\n') = line := takeWhile_run hrun hend
      show some (Lexeme.slash ('/' :: (line ++ behind))) = _
      rw [Lexeme.slash, htake]
      rfl

/-- What stands where the longest match are blanks. -/
theorem lexeme?_blanks (h : blanks.Longest word behind) (p : Position) :
    (Cursor.mk p (word ++ behind)).lexeme? = some (blanks.lexeme word behind) := by
  obtain ⟨hne, hrun⟩ : word ≠ [] ∧ ∀ b ∈ word, isBlank b = true := by
    cases h.here with
    | blanks hne hrun => exact ⟨hne, hrun⟩
  have hend : behind.head?.any isBlank = false := by
    refine h.any_eq_false .blanks fun c hc => .blanks (by simp) ?_
    intro b hb
    rcases List.mem_append.1 hb with hb | hb
    · exact hrun b hb
    · rwa [List.mem_singleton.1 hb]
  obtain ⟨b, more, rfl⟩ := List.exists_cons_of_ne_nil hne
  have htake : (more ++ behind).takeWhile isBlank = more :=
    takeWhile_run (fun c hc => hrun c (List.mem_cons_of_mem b hc)) hend
  show some (Lexeme.of b (more ++ behind)) = _
  rw [Lexeme.of_blank (hrun b List.mem_cons_self), Lexeme.blanks, htake]
  rfl

/-- Where a pattern is the longest, what it stands for is under the cursor. A reserved word is
overlooked in front of a character that shares its first byte with one that goes on with a word. -/
theorem lexeme?_eq (h : pat.Longest word behind) (p : Position) :
    (Cursor.mk p (word ++ behind)).lexeme? =
      some (if pat.isReserved && behind.head?.any sharesFirstByte then name.lexeme word behind
        else pat.lexeme word behind) := by
  cases pat with
  | name => exact h.lexeme?_name p
  | keyword k => exact h.lexeme?_reserved rfl p
  | boolean b => exact h.lexeme?_reserved rfl p
  | symbol s => exact h.lexeme?_symbol p
  | digit => exact h.lexeme?_number (.inl rfl) p
  | pointAndDigit => exact h.lexeme?_number (.inr rfl) p
  | bang =>
      cases h.here
      have hne : behind.head? ≠ some '=' := h.head?_ne (.symbol (s := .bangEquals) (by decide))
      exact congrArg some (Lexeme.bang_of_ne hne)
  | lineComment => exact h.lexeme?_lineComment p
  | blanks => exact h.lexeme?_blanks p
  | quote =>
      cases h.here
      rfl
  | singleQuote =>
      cases h.here
      rfl
  | blockComment =>
      cases h.here
      show some (Lexeme.slash ('*' :: behind)) = _
      rfl

end Longest

end Pattern

/-! ## Other characters -/

/-- A character that no pattern begins with is not expected. -/
theorem Lexeme.of_not_begins {head : Char} (h : ∀ pat : Pattern, ¬ pat.Begins head)
    (rest : List Char) : of head rest = ⟨.fault (.unexpectedCharacter head) 0, 0⟩ := by
  have hstart : ¬ startsWord head = true := fun hc =>
    h .name ⟨[], .name (Bool.and_eq_true_iff.2 ⟨hc, rfl⟩)⟩
  have hdigit : ¬ head.isDigit = true := fun hc => h .digit ⟨[], .digit hc⟩
  have hblank : ¬ isBlank head = true := fun hc =>
    h .blanks ⟨[], .blanks (List.cons_ne_nil _ _) fun b hb => by rwa [List.mem_singleton.1 hb]⟩
  have hne : ∀ s : Symbol, s ≠ .endOfFile → (Token.Kind.symbol s).spelling ≠ [head] :=
    fun s hs hspelling => h (.symbol s) ⟨[], hspelling ▸ .symbol hs⟩
  have hsign : ∀ s : Symbol, s ≠ .endOfFile → (Token.Kind.symbol s).spelling = [head] →
      sign s = ⟨.fault (.unexpectedCharacter head) 0, 0⟩ :=
    fun s hs hspelling => absurd hspelling (hne s hs)
  unfold of
  rw [if_neg hstart, if_neg hdigit, if_neg hblank]
  split
  case h_2 => exact absurd ⟨[], .quote⟩ (h .quote)
  case h_3 => exact absurd ⟨[], .singleQuote⟩ (h .singleQuote)
  case h_4 => exact absurd rfl (hne .period (by decide))
  case h_5 => exact absurd rfl (hne .slash (by decide))
  case h_6 => exact absurd ⟨[], .bang⟩ (h .bang)
  case h_7 => exact absurd rfl (hne .equals (by decide))
  case h_8 => exact absurd rfl (hne .lesser (by decide))
  case h_9 => exact absurd rfl (hne .greater (by decide))
  case h_22 => rfl
  all_goals exact hsign _ (by decide) rfl

/-! ## Signs -/

/-- The signs that are other ones in front of an equals sign. -/
def signPairs : List (Char × Symbol × Symbol) :=
  [('<', .lesser, .lesserOrEqual), ('>', .greater, .greaterOrEqual), ('=', .equals, .doubleEquals)]

/-- What stands where one of these signs does. -/
theorem Lexeme.of_pair {sign : Char} {alone withEquals : Symbol}
    (h : (sign, alone, withEquals) ∈ signPairs) (rest : List Char) :
    of sign rest = signOrEquals alone withEquals rest := by
  simp only [signPairs, List.mem_cons, Prod.mk.injEq, List.not_mem_nil, or_false] at h
  rcases h with ⟨rfl, rfl, rfl⟩ | ⟨rfl, rfl, rfl⟩ | ⟨rfl, rfl, rfl⟩ <;> rfl

/-- A number is read as a literal or is a fault. -/
theorem Lexeme.meaning_number (text : List Char) :
    (∃ value, (number text).meaning = .token (.literal value)) ∨
      ∃ fault offset, (number text).meaning = .fault fault offset := by
  simp only [number]
  split
  · exact .inl ⟨_, rfl⟩
  · exact .inr ⟨_, _, rfl⟩

end Lexer

open Lexer

namespace Cursor

/-! ## What a cursor reads -/

variable {p : Position} {word behind rest : List Char} {head : Char} {kind : Token.Kind}

/-- What is read where a word is a token of some kind, in front of other text. -/
def accept (p : Position) (kind : Token.Kind) (word behind : List Char) :
    Except Diagnostic Token × Cursor :=
  (.ok ⟨kind, ⟨p, p.after word⟩⟩, ⟨p.after word, behind⟩)

/-- A lexeme that is as long as a word is passed with it. -/
theorem pass_word (p : Position) (word : List Char) (hword : word ≠ []) (behind : List Char)
    (meaning : Meaning) :
    (mk p (word ++ behind)).pass ⟨meaning, word.length - 1⟩ = ⟨p.after word, behind⟩ := by
  obtain ⟨head, used, rfl⟩ := List.exists_cons_of_ne_nil hword
  exact pass_append p head rfl behind

/-- A word that is a token is read. -/
theorem pull_of_word (word : List Char) (hword : word ≠ [])
    (h : lexeme? ⟨p, word ++ behind⟩ = some ⟨.token kind, word.length - 1⟩) :
    pull ⟨p, word ++ behind⟩ = accept p kind word behind := by
  rw [pull_of_token h rfl, pass_word p word hword]
  rfl

/-- Where a word begins, the longest one is read. -/
theorem pull_longestWord (hstart : startsWord head = true) :
    ∃ word behind kind, head :: rest = word ++ behind ∧ LongestWord word (head :: rest) ∧
      WordMeans word kind ∧ pull ⟨p, head :: rest⟩ = accept p
        (if behind.head?.any sharesFirstByte then .identifier (String.ofList word) else kind)
        word behind := by
  let more := rest.takeWhile continuesWord
  let behind := rest.dropWhile continuesWord
  have htext : head :: rest = (head :: more) ++ behind := by
    rw [List.cons_append, List.takeWhile_append_dropWhile]
  have hword : isWord (head :: more) = true :=
    Bool.and_eq_true_iff.2 ⟨hstart, List.all_takeWhile⟩
  have hover : behind.head?.any continuesWord = false := any_head?_dropWhile _ _
  obtain ⟨kind, hkind⟩ := exists_wordMeans (head :: more)
  refine ⟨_, behind, kind, htext, ?_, hkind, ?_⟩
  · rw [htext]
    exact longestWord_append _ _ hword hover
  · rw [htext, ← hkind.ofWord_eq]
    exact pull_of_word _ (List.cons_ne_nil _ _) (congrArg some (Lexeme.of_run hword hover))

/-- A sign is the one of two characters where an equals sign follows, and only there. -/
theorem pull_pair {alone withEquals : Symbol} (h : (head, alone, withEquals) ∈ signPairs) :
    (∀ behind, rest = '=' :: behind →
      pull ⟨p, head :: rest⟩ = accept p (.symbol withEquals) [head, '='] behind) ∧
    (rest.head? ≠ some '=' →
      pull ⟨p, head :: rest⟩ = accept p (.symbol alone) [head] rest) := by
  constructor
  · rintro behind rfl
    exact pull_of_word [head, '='] (List.cons_ne_nil _ _)
      (congrArg some (Lexeme.of_pair h _))
  · intro hne
    have hof := (Lexeme.of_pair h rest).trans (Lexeme.signOrEquals_of_ne alone withEquals hne)
    exact pull_of_word [head] (List.cons_ne_nil _ _) (congrArg some hof)

/-- An exclamation mark is the sign for unequal in front of an equals sign, and otherwise a fault behind
it. -/
theorem pull_bang (p : Position) (rest : List Char) :
    (∀ behind, rest = '=' :: behind →
      pull ⟨p, '!' :: rest⟩ = accept p (.symbol .bangEquals) ['!', '='] behind) ∧
    (rest.head? ≠ some '=' →
      pull ⟨p, '!' :: rest⟩ =
        (.error (.lexical .loneBang (p.advance '!')), ⟨p.advance '!', rest⟩)) := by
  constructor
  · rintro behind rfl
    exact pull_of_word ['!', '='] (List.cons_ne_nil _ _) rfl
  · intro hne
    have hl : lexeme? ⟨p, '!' :: rest⟩ = some ⟨.fault .loneBang 1, 0⟩ :=
      congrArg some (Lexeme.bang_of_ne hne)
    rw [pull_of_fault hl rfl]
    rfl

/-- A slash begins a comment up to the end of its line in front of another one, and a block comment in
front of an asterisk. Otherwise it is a token. -/
theorem pull_slash (p : Position) (rest : List Char) :
    (∀ after, rest = '/' :: after → ∃ line behind, after = line ++ behind ∧ '\n' ∉ line ∧
      (∀ c ∈ behind.head?, c = '\n') ∧
      pull ⟨p, '/' :: rest⟩ = pull ⟨p.after ('/' :: '/' :: line), behind⟩) ∧
    (∀ inside, rest = '*' :: inside →
      lexeme? ⟨p, '/' :: rest⟩ = some (Pattern.blockComment.lexeme ['/', '*'] inside)) ∧
    (rest.head? ≠ some '/' → rest.head? ≠ some '*' →
      pull ⟨p, '/' :: rest⟩ = accept p (.symbol .slash) ['/'] rest) := by
  refine ⟨?_, ?_, ?_⟩
  · rintro after rfl
    let line := after.takeWhile (· != '\n')
    let behind := after.dropWhile (· != '\n')
    have hafter : after = line ++ behind := List.takeWhile_append_dropWhile.symm
    have hline : '\n' ∉ line := fun hmem => absurd (List.mem_takeWhile_imp hmem) (by decide)
    have hbehind : ∀ c ∈ behind.head?, c = '\n' := by
      intro c hc
      have hany := any_head?_dropWhile (· != '\n') after
      rw [hc, Option.any_some, bne_eq_false_iff_eq] at hany
      exact hany
    refine ⟨line, behind, hafter, hline, hbehind, ?_⟩
    have hl : lexeme? ⟨p, '/' :: '/' :: after⟩ = some ⟨.skipped, line.length + 1⟩ := rfl
    have hpass := pass_word p ('/' :: '/' :: line) (List.cons_ne_nil _ _) behind .skipped
    rw [List.cons_append, List.cons_append, ← hafter] at hpass
    rw [pull_of_skipped hl rfl]
    exact congrArg pull hpass
  · rintro inside rfl
    rfl
  · intro hline hblock
    exact pull_of_word ['/'] (List.cons_ne_nil _ _)
      (congrArg some (Lexeme.slash_of_ne hline hblock))

/-- A point is a period in front of anything but a digit, and only there. -/
theorem pull_point (p : Position) (rest : List Char) :
    pull ⟨p, '.' :: rest⟩ = accept p (.symbol .period) ['.'] rest ↔
      rest.head?.any Char.isDigit = false := by
  have hof : lexeme? ⟨p, '.' :: rest⟩ = some (if rest.head?.any Char.isDigit then
      .number ('.' :: rest) else .sign .period) := rfl
  constructor
  · intro hpull
    by_contra hdigit
    rw [Bool.not_eq_false] at hdigit
    rw [hdigit, if_pos rfl] at hof
    rw [pull_of_lexeme hof] at hpull
    rcases Lexeme.meaning_number ('.' :: rest) with ⟨value, hvalue⟩ | ⟨fault, offset, hfault⟩
    · rw [hvalue] at hpull
      cases congrArg Token.kind (Except.ok.inj (Prod.mk.inj hpull).1)
    · rw [hfault] at hpull
      cases (Prod.mk.inj hpull).1
  · intro hdigit
    rw [hdigit, if_neg Bool.false_ne_true] at hof
    exact pull_of_word ['.'] (List.cons_ne_nil _ _) hof

/-- Where some pattern begins with the next character, one is the longest match, and what it stands for
is under the cursor. Only a reserved word is overlooked in front of a character that shares its first
byte with one that goes on with a word, and is then a name. Where no pattern begins with the next
character this is not expected, and it alone is passed. For words, signs, slashes and points this comes
to what is said of them in turn. -/
theorem pull_longest (p : Position) (head : Char) (rest : List Char) :
    let c : Cursor := ⟨p, head :: rest⟩
    ((∃ pat : Pattern, pat.Begins head) → ∃ (pat : Pattern) (word behind : List Char),
      head :: rest = word ++ behind ∧ pat.Longest word behind) ∧
    (∀ (pat : Pattern) (word behind : List Char), head :: rest = word ++ behind →
      pat.Longest word behind → c.lexeme? = some
        (if pat.isReserved && behind.head?.any sharesFirstByte then
          Pattern.name.lexeme word behind else pat.lexeme word behind)) ∧
    ((∀ pat : Pattern, ¬ pat.Begins head) →
      c.pull = (.error (.lexical (.unexpectedCharacter head) p), ⟨p.advance head, rest⟩)) ∧
    (startsWord head = true → ∃ word behind kind,
      head :: rest = word ++ behind ∧ LongestWord word (head :: rest) ∧ WordMeans word kind ∧
      c.pull = accept p
        (if behind.head?.any sharesFirstByte then .identifier (String.ofList word) else kind)
        word behind) ∧
    (∀ alone withEquals, (head, alone, withEquals) ∈ signPairs →
      (∀ behind, rest = '=' :: behind →
        c.pull = accept p (.symbol withEquals) [head, '='] behind) ∧
      (rest.head? ≠ some '=' → c.pull = accept p (.symbol alone) [head] rest)) ∧
    (head = '!' →
      (∀ behind, rest = '=' :: behind →
        c.pull = accept p (.symbol .bangEquals) ['!', '='] behind) ∧
      (rest.head? ≠ some '=' →
        c.pull = (.error (.lexical .loneBang (p.advance '!')), ⟨p.advance '!', rest⟩))) ∧
    (head = '/' →
      (∀ after, rest = '/' :: after → ∃ line behind, after = line ++ behind ∧ '\n' ∉ line ∧
        (∀ d ∈ behind.head?, d = '\n') ∧
        c.pull = pull ⟨p.after ('/' :: '/' :: line), behind⟩) ∧
      (∀ inside, rest = '*' :: inside →
        c.lexeme? = some (Pattern.blockComment.lexeme ['/', '*'] inside)) ∧
      (rest.head? ≠ some '/' → rest.head? ≠ some '*' →
        c.pull = accept p (.symbol .slash) ['/'] rest)) ∧
    (head = '.' →
      (c.pull = accept p (.symbol .period) ['.'] rest ↔ rest.head?.any Char.isDigit = false)) := by
  intro c
  refine ⟨?_, ?_, ?_, pull_longestWord, fun _ _ => pull_pair, ?_, ?_, ?_⟩
  · rintro ⟨pat, hbegins⟩
    obtain ⟨other, hother⟩ := hbegins.exists_matches
    exact Pattern.exists_longest ⟨other, [head], ⟨rest, rfl⟩, hother⟩
  · intro pat word behind htext hlongest
    have hl := hlongest.lexeme?_eq p
    rwa [← htext] at hl
  · intro hnone
    have hl : c.lexeme? = some ⟨.fault (.unexpectedCharacter head) 0, 0⟩ :=
      congrArg some (Lexeme.of_not_begins hnone rest)
    rw [pull_of_fault hl rfl]
    rfl
  · rintro rfl
    exact pull_bang p rest
  · rintro rfl
    exact pull_slash p rest
  · rintro rfl
    exact pull_point p rest

/-- A word that begins like a keyword is a name, signs are read with the equals sign that follows, a
point in front of a letter is a period, and no pattern begins with the last of these characters. -/
theorem pull_longest_words :
    LongestWord "ending".toList "ending.".toList ∧
    pull ⟨⟨1, 1⟩, "ending.".toList⟩ = accept ⟨1, 1⟩ (.identifier "ending") "ending".toList ['.'] ∧
    pull ⟨⟨1, 1⟩, "<==".toList⟩ = accept ⟨1, 1⟩ (.symbol .lesserOrEqual) ['<', '='] ['='] ∧
    pull ⟨⟨1, 1⟩, "!x".toList⟩ = (.error (.lexical .loneBang ⟨1, 2⟩), ⟨⟨1, 2⟩, ['x']⟩) ∧
    pull ⟨⟨1, 1⟩, "/x".toList⟩ = accept ⟨1, 1⟩ (.symbol .slash) ['/'] ['x'] ∧
    pull ⟨⟨1, 1⟩, ".x".toList⟩ = accept ⟨1, 1⟩ (.symbol .period) ['.'] ['x'] ∧
    (∀ pat : Pattern, ¬ pat.Begins '#') ∧
    pull ⟨⟨1, 1⟩, "#x".toList⟩ = (.error (.lexical (.unexpectedCharacter '#') ⟨1, 1⟩),
      ⟨⟨1, 2⟩, ['x']⟩) := by
  have hword : LongestWord "ending".toList "ending.".toList :=
    longestWord_append "ending".toList ['.'] (by decide +kernel) (by decide +kernel)
  have hnone : ∀ pat : Pattern, ¬ pat.Begins '#' := by
    intro pat hbegins
    obtain ⟨other, hother⟩ := hbegins.exists_matches
    generalize hhash : ['#'] = word at hother
    cases hother with
    | name h => subst hhash; revert h; decide +kernel
    | keyword k => revert hhash; cases k <;> decide
    | boolean b => revert hhash; cases b <;> decide
    | @symbol s => revert hhash; cases s <;> decide
    | digit h => obtain ⟨rfl, -⟩ := List.cons.inj hhash; revert h; decide
    | blanks _ hrun => subst hhash; exact absurd (hrun '#' List.mem_cons_self) (by decide)
    | _ => cases hhash
  obtain ⟨-, -, -, hname, -⟩ := pull_longest ⟨1, 1⟩ 'e' "nding.".toList
  obtain ⟨-, -, -, -, hless, -⟩ := pull_longest ⟨1, 1⟩ '<' "==".toList
  obtain ⟨-, -, -, -, -, hbang, -⟩ := pull_longest ⟨1, 1⟩ '!' ['x']
  obtain ⟨-, -, -, -, -, -, hslash, -⟩ := pull_longest ⟨1, 1⟩ '/' ['x']
  obtain ⟨-, -, -, -, -, -, -, hpoint⟩ := pull_longest ⟨1, 1⟩ '.' ['x']
  obtain ⟨-, -, hunexpected, -⟩ := pull_longest ⟨1, 1⟩ '#' ['x']
  obtain ⟨word, behind, kind, htext, hlongest, hkind, hpull⟩ := hname (by decide +kernel)
  obtain rfl : "ending".toList = word := hword.unique hlongest
  have happend : "ending".toList ++ ['.'] = "ending".toList ++ behind := htext
  obtain rfl : ['.'] = behind := List.append_cancel_left happend
  obtain rfl : Token.Kind.identifier "ending" = kind :=
    .trans (by decide +kernel) hkind.ofWord_eq
  have hover : ['.'].head?.any sharesFirstByte = false := by decide +kernel
  rw [hover, if_neg Bool.false_ne_true] at hpull
  exact ⟨hword, hpull, (hless .lesser .lesserOrEqual (by decide)).1 _ rfl, (hbang rfl).2 (by decide),
    (hslash rfl).2.2 (by decide) (by decide), (hpoint rfl).2 (by decide), hnone, hunexpected hnone⟩

/-- A keyword is overlooked in front of a character that belongs to no word but shares its first byte
with letters. -/
theorem not_pull_longest :
    let c := Cursor.ofChars "end😀".toList
    LongestWord ['e', 'n', 'd'] c.rest ∧ WordMeans ['e', 'n', 'd'] (.keyword .endKw) ∧
    c.pull = accept .first (.identifier "end") ['e', 'n', 'd'] ['😀'] ∧
    c.pull ≠ accept .first (.keyword .endKw) ['e', 'n', 'd'] ['😀'] := by
  intro c
  have hpull : c.pull = accept .first (.identifier "end") ['e', 'n', 'd'] ['😀'] := by
    decide +kernel
  refine ⟨longestWord_append ['e', 'n', 'd'] ['😀'] (by decide +kernel) (by decide +kernel),
    .keyword .endKw, hpull, ?_⟩
  rw [hpull]
  decide

end Cursor

end Bucket
