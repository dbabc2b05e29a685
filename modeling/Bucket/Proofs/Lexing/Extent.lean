/-
# Where a lexeme is over

A lexeme without fault looks at no more than one character behind it, and only to see that it does not
go on there. So it is the same lexeme in front of any other text that begins with that character, and
at the end of a text (`Lexeme.ends_of`). But for newlines themselves, no lexeme ends with one.
-/
import Bucket.Proofs.Lexing.Tokens

namespace Bucket.Lexer

/-! ## What stands behind -/

/-- Whether a text is empty or begins like another one. -/
def Alike (a b : List Char) : Prop := a = [] ∨ a.head? = b.head?

/-- What does not stand at the head of a text does not stand at that of one like it. -/
theorem Alike.any_eq_false {a b : List Char} {p : Char → Bool} (h : Alike a b)
    (hb : b.head?.any p = false) : a.head?.any p = false := by
  rcases h with rfl | h
  · rfl
  · rw [h, hb]

theorem Alike.head?_ne {a b : List Char} {c : Char} (h : Alike a b) (hb : b.head? ≠ some c) :
    a.head? ≠ some c := by
  rcases h with rfl | h
  · exact fun hnone => by cases hnone
  · rwa [h]

namespace Lexeme

/-- Whether a lexeme is a token or is skipped. -/
def Faultless (l : Lexeme) : Prop := ∀ fault offset, l.meaning ≠ .fault fault offset

theorem writable_of_token {l : Lexeme} {k : Token.Kind} (h : l.meaning = .token k)
    (hw : k.isWritable = true) : l.Writable := by
  intro k' hk'
  rwa [← Meaning.token.inj (h.symm.trans hk')]

theorem faultless_of_token {l : Lexeme} {k : Token.Kind} (h : l.meaning = .token k) :
    l.Faultless := by
  intro fault offset hfault
  cases h.symm.trans hfault

theorem writable_of_skipped {l : Lexeme} (h : l.meaning = .skipped) : l.Writable := by
  intro k hk
  cases h.symm.trans hk

theorem faultless_of_skipped {l : Lexeme} (h : l.meaning = .skipped) : l.Faultless := by
  intro fault offset hfault
  cases h.symm.trans hfault

/-- Whether a lexeme takes some characters behind its first one and is over where others begin. These
may be exchanged for what is like them, and it does not end with a newline. -/
structure Over (read : List Char → Lexeme) (used behind : List Char) : Prop where
  more_eq : (read (used ++ behind)).more = used.length
  read_eq : ∀ other, Alike other behind → read (used ++ other) = read (used ++ behind)
  not_newline : used.getLast? ≠ some '\n'

/-- Whether what is read behind the first character of a lexeme shows where that is over. -/
def Ends (read : List Char → Lexeme) (rest : List Char) : Prop :=
  ∃ used behind, rest = used ++ behind ∧ Over read used behind

/-- Whether a lexeme is closed by its own last character, so that it is the same in front of anything. -/
def Closes (read : List Char → Lexeme) (rest : List Char) : Prop :=
  ∃ used behind, rest = used ++ behind ∧ (read rest).more = used.length ∧
    (∀ other, read (used ++ other) = read rest) ∧ used.getLast? ≠ some '\n'

theorem Closes.ends {read : List Char → Lexeme} {rest : List Char} (h : Closes read rest) :
    Ends read rest := by
  obtain ⟨used, behind, rfl, hmore, hread, hlast⟩ := h
  exact ⟨used, behind, rfl, hmore, fun other _ => hread other, hlast⟩

/-- What was read by a class of characters is read again where that class ends. -/
theorem takeWhile_alike {p : Char → Bool} {rest other : List Char}
    (h : Alike other (rest.dropWhile p)) :
    (rest.takeWhile p ++ other).takeWhile p = rest.takeWhile p ∧
      (rest.takeWhile p ++ other).dropWhile p = other := by
  have hrun : ∀ c ∈ rest.takeWhile p, p c := fun c hc => List.mem_takeWhile_imp hc
  have hover := h.any_eq_false (any_head?_dropWhile p rest)
  exact ⟨takeWhile_run hrun hover, dropWhile_run hrun hover⟩

/-- The last character of a text of one class is of that class. -/
theorem getLast?_takeWhile_ne {p : Char → Bool} (hp : p '\n' = false) (rest : List Char) :
    (rest.takeWhile p).getLast? ≠ some '\n' := by
  intro h
  have hmem := List.mem_takeWhile_imp (List.mem_of_getLast? h)
  simp [hp] at hmem

/-! ## Signs -/

/-- A lexeme of one character is over at once. -/
theorem ends_at_once {read : List Char → Lexeme} {rest : List Char} (hmore : (read rest).more = 0)
    (h : ∀ other, Alike other rest → read other = read rest) : Ends read rest :=
  ⟨[], rest, rfl, hmore, h, by simp⟩

theorem ends_sign (s : Symbol) (rest : List Char) : Ends (fun _ => sign s) rest :=
  ends_at_once rfl fun _ _ => rfl

theorem signOrEquals_of_ne (alone withEquals : Symbol) {rest : List Char}
    (h : rest.head? ≠ some '=') : signOrEquals alone withEquals rest = sign alone := by
  unfold signOrEquals
  split
  · exact absurd rfl h
  · rfl

theorem ends_signOrEquals (alone withEquals : Symbol) (rest : List Char) :
    Ends (signOrEquals alone withEquals) rest := by
  by_cases h : rest.head? = some '='
  · obtain ⟨rest, rfl⟩ := List.head?_eq_some_iff.1 h
    exact ⟨['='], rest, rfl, rfl, fun _ _ => rfl, by decide⟩
  · have hrest := signOrEquals_of_ne alone withEquals h
    refine ends_at_once (by rw [hrest]; rfl) fun other hother => ?_
    rw [hrest, signOrEquals_of_ne alone withEquals (hother.head?_ne h)]

theorem bang_of_ne {rest : List Char} (h : rest.head? ≠ some '=') :
    bang rest = ⟨.fault .loneBang 1, 0⟩ := by
  unfold bang
  split
  · exact absurd rfl h
  · rfl

theorem ends_bang {rest : List Char} (h : (bang rest).Faultless) : Ends bang rest := by
  unfold bang at h
  split at h
  · exact ⟨['='], _, rfl, rfl, fun _ _ => rfl, by decide⟩
  · exact absurd rfl (h _ _)

/-! ## Blanks and words -/

theorem ends_blanks (rest : List Char) : Ends blanks rest := by
  refine ⟨rest.takeWhile isBlank, rest.dropWhile isBlank, List.takeWhile_append_dropWhile.symm, ?_,
    fun other hother => ?_, getLast?_takeWhile_ne rfl rest⟩
  · rw [List.takeWhile_append_dropWhile]
    rfl
  · rw [List.takeWhile_append_dropWhile, blanks, blanks, (takeWhile_alike hother).1]

/-- A word in front of a text that it is a token before is the same token alone. -/
theorem wordKind_alike {word behind other : List Char}
    (hw : (wordKind word behind).isWritable = true) (h : Alike other behind) :
    wordKind word other = wordKind word behind := by
  rcases h with rfl | h
  · unfold wordKind at hw ⊢
    split at hw
    · -- A word that is taken for a name in front of that text is one alone.
      rename_i hshares
      rw [if_neg (by simp), if_pos hshares]
      simp only [Token.Kind.isWritable, Bool.and_eq_true, beq_iff_eq, String.toList_ofList] at hw
      exact hw.2
    · rename_i hshares
      rw [if_neg (by simp), if_neg hshares]
  · rw [wordKind, wordKind, h]

theorem ends_word {c : Char} {rest : List Char} (hw : (word c rest).Writable) :
    Ends (word c) rest := by
  refine ⟨rest.takeWhile continuesWord, rest.dropWhile continuesWord,
    List.takeWhile_append_dropWhile.symm, ?_, fun other hother => ?_, getLast?_takeWhile_ne ?_ rest⟩
  · rw [List.takeWhile_append_dropWhile]
    rfl
  · obtain ⟨htake, hdrop⟩ := takeWhile_alike hother
    rw [List.takeWhile_append_dropWhile]
    simp only [word, htake, hdrop]
    rw [wordKind_alike (hw _ rfl) hother]
  · decide +kernel

/-! ## Numbers -/

/-- What has a value has digits in its exponent, if there is one, and no letter follows it. -/
theorem of_outcome_ok {n : Number} {rest : List Char} {value : Literal}
    (h : n.outcome rest = .ok value) :
    n.exponent.any (·.digits.isEmpty) = false ∧ rest.head?.any continuesNumber = false := by
  unfold Number.outcome at h
  split at h
  · cases h
  · rename_i hexponent
    split at h
    · cases h
    · rename_i hletter
      exact ⟨Bool.eq_false_iff.2 hexponent, Bool.eq_false_iff.2 hletter⟩

theorem more_number (text : List Char) :
    (number text).more = (readNumber text).1.chars.length - 1 := by
  simp only [number]
  split <;> rfl

/-- A number without fault is the same in front of any text that does not go on with it. -/
theorem number_again {text behind other : List Char} {n : Number} {value : Literal}
    (hread : readNumber text = (n, behind)) (hvalue : n.outcome behind = .ok value)
    (hover : other.head?.any n.goesOn = false) (hletter : other.head?.any continuesNumber = false) :
    number (n.chars ++ other) = ⟨.token (.literal value), n.chars.length - 1⟩ := by
  obtain ⟨hexponent, hbehind⟩ := of_outcome_ok hvalue
  have hwf := wellFormed_readNumber text
  rw [hread] at hwf
  have hother : n.outcome other = .ok value := by
    rw [← hvalue, Number.outcome, Number.outcome, hletter, hbehind]
  simp only [number, readNumber_chars (hwf hexponent) hover, hother]

/-- A number without fault is the same in front of what is like the text behind it. -/
theorem number_alike {text behind other : List Char} {n : Number} {value : Literal}
    (hread : readNumber text = (n, behind)) (hvalue : n.outcome behind = .ok value)
    (h : Alike other behind) :
    number (n.chars ++ other) = ⟨.token (.literal value), n.chars.length - 1⟩ := by
  have hover := any_goesOn_readNumber text
  rw [hread] at hover
  exact number_again hread hvalue (h.any_eq_false hover) (h.any_eq_false (of_outcome_ok hvalue).2)

/-- A number has no newlines. -/
theorem newline_not_mem_chars {n : Number} (hn : n.WellFormed) : '\n' ∉ n.chars := by
  have hdigits : ∀ ds : List Char, (∀ c ∈ ds, c.isDigit) → '\n' ∉ ds :=
    fun ds hds hmem => absurd (hds _ hmem) (by decide)
  have hwhole := hdigits n.whole hn.whole
  have hfraction : '\n' ∉ Number.fractionChars n.fraction := by
    cases hf : n.fraction with
    | none => simp [Number.fractionChars]
    | some ds => simpa [Number.fractionChars] using hdigits ds (hn.fraction ds hf)
  have hexponent : '\n' ∉ Number.exponentChars n.exponent := by
    cases he : n.exponent with
    | none => simp [Number.exponentChars]
    | some e =>
        have hwf := hn.exponent e he
        have hletter : '\n' ≠ e.letter := by
          rcases hwf.letter with h | h <;> rw [h] <;> decide
        have hsign : '\n' ∉ e.sign := by
          intro hmem
          rcases hwf.sign _ hmem with h | h <;> exact absurd h (by decide)
        have hds := hdigits e.digits hwf.digits
        simp_all [Number.exponentChars, Exponent.chars]
  simp [Number.chars, hwhole, hfraction, hexponent]

theorem ends_number {c : Char} {rest : List Char} (h : (number (c :: rest)).Faultless)
    (hne : (readNumber (c :: rest)).1.chars ≠ []) :
    Ends (fun rest => number (c :: rest)) rest := by
  have happend := readNumber_append (c :: rest)
  have hwf := wellFormed_readNumber (c :: rest)
  cases hread : readNumber (c :: rest) with
  | mk n behind =>
    rw [hread] at happend hne hwf
    cases hvalue : n.outcome behind with
    | error e =>
        obtain ⟨fault, offset⟩ := e
        refine absurd ?_ (h fault offset)
        simp only [number, hread, hvalue]
    | ok value =>
        obtain ⟨d, used, hchars⟩ := List.exists_cons_of_ne_nil hne
        dsimp only at hchars happend
        rw [hchars] at happend
        obtain ⟨rfl, rfl⟩ := List.cons.inj happend
        have hagain : ∀ other, Alike other behind →
            number (d :: (used ++ other)) = ⟨.token (.literal value), used.length⟩ := by
          intro other hother
          have := number_alike hread hvalue hother
          rwa [hchars] at this
        have hself := hagain behind (.inr rfl)
        refine ⟨used, behind, rfl, ?_, fun other hother => ?_, fun hlast => ?_⟩
        · rw [hself]
        · rw [hself, hagain other hother]
        · refine newline_not_mem_chars (hwf (of_outcome_ok hvalue).1) ?_
          dsimp only
          rw [hchars]
          exact List.mem_cons_of_mem _ (List.mem_of_getLast? hlast)

/-- A number that begins with a digit has characters, and so has one that begins with a point. -/
theorem chars_readNumber_ne_nil {c : Char} (hc : c.isDigit = true ∨ c = '.') (rest : List Char) :
    (readNumber (c :: rest)).1.chars ≠ [] := by
  rcases hc with hc | rfl
  · simp [readNumber, Number.chars, hc]
  · have hpoint : Char.isDigit '.' = false := by decide
    simp [readNumber, Number.chars, hpoint, readFraction, Number.fractionChars]

/-- A point is the head of a number in front of a digit, and a sign in front of anything else. -/
theorem ends_point {rest : List Char} (h : (of '.' rest).Faultless) : Ends (of '.') rest := by
  have hof : of '.' = fun rest =>
      if rest.head?.any Char.isDigit then number ('.' :: rest) else sign .period := rfl
  rw [hof] at h ⊢
  dsimp only at h
  cases hdigit : rest.head?.any Char.isDigit with
  | false =>
      refine ends_at_once ?_ fun other hother => ?_
      · simp only [hdigit]
        rfl
      · rw [hdigit, hother.any_eq_false hdigit]
        rfl
  | true =>
      simp only [hdigit, if_true] at h
      obtain ⟨used, behind, rfl, hover⟩ := ends_number h (chars_readNumber_ne_nil (.inr rfl) rest)
      -- The digit belongs to the number, so it stands there whatever follows.
      have hused : used ≠ [] := by
        rintro rfl
        have hmore := hover.more_eq
        rw [more_number, List.nil_append, List.length_nil] at hmore
        cases behind with
        | nil => simp at hdigit
        | cons d behind =>
            have hd : d.isDigit = true := hdigit
            have hpoint : Char.isDigit '.' = false := by decide
            simp [readNumber, Number.chars, hpoint, readFraction, Number.fractionChars, hd] at hmore
      obtain ⟨d, used, rfl⟩ := List.exists_cons_of_ne_nil hused
      have hd : d.isDigit = true := hdigit
      refine ⟨d :: used, behind, rfl, ?_, fun other hother => ?_, hover.not_newline⟩
      · simpa [hd] using hover.more_eq
      · simpa [hd] using hover.read_eq other hother

/-! ## Text in quotes -/

/-- A reading with a character in front is closed when the reading is. -/
theorem exists_of_push {reading : StringReading} {d : Char} {k n : Nat} {value : List Char}
    (h : reading.push d k = .closed value n) :
    ∃ value' taken, reading = .closed value' taken ∧ value = d :: value' ∧ n = taken + k := by
  cases reading with
  | closed value' taken =>
      obtain ⟨rfl, rfl⟩ := StringReading.closed.inj h
      exact ⟨value', taken, rfl, rfl, rfl⟩
  | badEscape offset => cases h
  | unclosed => cases h

/-- A string that is closed goes up to a quote, and is read again in front of anything. -/
theorem exists_of_readString {text value : List Char} {n : Nat}
    (h : readString text = .closed value n) :
    ∃ inside behind, text = inside ++ '\x22' :: behind ∧ n = inside.length + 1 ∧
      ∀ other, readString (inside ++ '\x22' :: other) = .closed value n := by
  fun_induction readString text generalizing value n with
  | case1 => cases h
  | case2 rest =>
      obtain ⟨rfl, rfl⟩ := StringReading.closed.inj h
      exact ⟨[], rest, rfl, rfl, fun other => readString_quote other⟩
  | case3 => cases h
  | case4 e rest d hd hquote ih =>
      obtain ⟨value', taken, hr, rfl, rfl⟩ := exists_of_push h
      obtain ⟨inside, behind, rfl, rfl, hagain⟩ := ih hr
      refine ⟨'\x5c' :: e :: inside, behind, rfl, rfl, fun other => ?_⟩
      rw [List.cons_append, List.cons_append, readString_escape hd, hagain]
      rfl
  | case5 => cases h
  | case6 c rest hquote hescape ih =>
      obtain ⟨value', taken, hr, rfl, rfl⟩ := exists_of_push h
      obtain ⟨inside, behind, rfl, rfl, hagain⟩ := ih hr
      refine ⟨c :: inside, behind, rfl, rfl, fun other => ?_⟩
      rw [List.cons_append, readString_plain hescape hquote, hagain]
      rfl

theorem closes_string {rest : List Char} (h : (string rest).Faultless) : Closes string rest := by
  cases hr : readString rest with
  | closed value taken =>
      obtain ⟨inside, behind, rfl, rfl, hagain⟩ := exists_of_readString hr
      refine ⟨inside ++ ['\x22'], behind, by simp, ?_, fun other => ?_, by simp⟩
      · simp [string, hr]
      · simp [string, hr, hagain]
  | badEscape offset => exact absurd (by simp [string, hr]) (h .invalidEscape (offset + 1))
  | unclosed => exact absurd (by simp [string, hr]) (h .unclosedString 0)

/-- A character literal is closed by a quote. -/
theorem exists_of_closeCharacter {rest : List Char} {d value : Char} {k n : Nat}
    (h : closeCharacter d k rest = .ok (value, n)) :
    ∃ behind, rest = '\x27' :: behind ∧ value = d ∧ n = k + 1 := by
  cases rest with
  | nil => cases h
  | cons c behind =>
      rw [closeCharacter] at h
      split at h
      case isTrue hc =>
        obtain ⟨rfl, rfl⟩ := Prod.mk.inj (Except.ok.inj h)
        exact ⟨behind, by rw [hc], rfl, rfl⟩
      case isFalse => cases h

/-- A character literal that is closed goes up to a quote, and is read again in front of anything. -/
theorem exists_of_readCharacter {rest : List Char} {value : Char} {n : Nat}
    (h : readCharacter rest = .ok (value, n)) :
    ∃ inside behind, rest = inside ++ '\x27' :: behind ∧ n = inside.length + 2 ∧
      ∀ other, readCharacter (inside ++ '\x27' :: other) = .ok (value, n) := by
  unfold readCharacter at h
  split at h
  · cases h
  · rename_i c rest
    split at h
    · cases h
    · rename_i hquote
      split at h
      · rename_i hescape
        split at h
        · cases h
        · rename_i e rest
          split at h
          · rename_i d hd
            obtain ⟨behind, rfl, rfl, rfl⟩ := exists_of_closeCharacter h
            exact ⟨[c, e], behind, rfl, rfl, fun other => by
              simp [readCharacter, hescape, hd, closeCharacter]⟩
          · cases h
      · rename_i hescape
        obtain ⟨behind, rfl, rfl, rfl⟩ := exists_of_closeCharacter h
        exact ⟨[value], behind, rfl, rfl, fun other => by
          simp [readCharacter, hquote, hescape, closeCharacter]⟩

theorem closes_character {rest : List Char} (h : (character rest).Faultless) :
    Closes character rest := by
  cases hr : readCharacter rest with
  | ok reading =>
      obtain ⟨value, n⟩ := reading
      obtain ⟨inside, behind, rfl, rfl, hagain⟩ := exists_of_readCharacter hr
      refine ⟨inside ++ ['\x27'], behind, by simp, ?_, fun other => ?_, by simp⟩
      · simp [character, hr]
      · simp [character, hr, hagain]
  | error e =>
      obtain ⟨fault, offset⟩ := e
      exact absurd (by simp [character, hr]) (h fault offset)

/-! ## Comments -/

/-- A character that begins no delimiter belongs to the comment. -/
theorem closeComment?_plain {a b : Char} (hclose : ¬ (a = '*' ∧ b = '/'))
    (hopen : ¬ (a = '/' ∧ b = '*')) (inner : Nat) (rest : List Char) :
    closeComment? inner (a :: b :: rest) = (closeComment? inner (b :: rest)).map (· + 1) := by
  cases inner <;> rw [closeComment?, if_neg hclose, if_neg hopen]

/-- A block comment that is closed goes up to a slash, and is closed again in front of anything. -/
theorem exists_of_closeComment? {inner n : Nat} {text : List Char}
    (h : closeComment? inner text = some n) :
    ∃ inside behind, text = inside ++ '/' :: behind ∧ n = inside.length + 1 ∧
      ∀ other, closeComment? inner (inside ++ '/' :: other) = some n := by
  fun_induction closeComment? inner text generalizing n with
  | case1 => cases h
  | case2 => cases h
  | case3 a b rest hclose =>
      obtain rfl := Option.some.inj h
      obtain ⟨rfl, rfl⟩ := hclose
      exact ⟨['*'], rest, rfl, rfl, fun other => by simp [closeComment?]⟩
  | case4 a b rest hclose inner ih =>
      obtain ⟨m, hm, rfl⟩ := Option.map_eq_some_iff.1 h
      obtain ⟨rfl, rfl⟩ := hclose
      obtain ⟨inside, behind, rfl, rfl, hagain⟩ := ih hm
      exact ⟨'*' :: '/' :: inside, behind, rfl, rfl, fun other => by
        simp [closeComment?, hagain]⟩
  | case5 inner a b rest hclose hopen ih =>
      obtain ⟨m, hm, rfl⟩ := Option.map_eq_some_iff.1 h
      obtain ⟨rfl, rfl⟩ := hopen
      obtain ⟨inside, behind, rfl, rfl, hagain⟩ := ih hm
      exact ⟨'/' :: '*' :: inside, behind, rfl, rfl, fun other => by
        simp [closeComment?, hagain]⟩
  | case6 inner a b rest hclose hopen ih =>
      obtain ⟨m, hm, rfl⟩ := Option.map_eq_some_iff.1 h
      obtain ⟨inside, behind, hsplit, rfl, hagain⟩ := ih hm
      refine ⟨a :: inside, behind, by rw [hsplit]; rfl, rfl, fun other => ?_⟩
      -- The next character is the same whatever follows the comment.
      obtain ⟨tail, htail⟩ : ∃ tail, inside ++ '/' :: other = b :: tail := by
        cases inside with
        | nil => exact ⟨other, by rw [(List.cons.inj hsplit).1]; rfl⟩
        | cons d inside => exact ⟨inside ++ '/' :: other, by rw [(List.cons.inj hsplit).1]; rfl⟩
      have := hagain other
      rw [List.cons_append, htail, closeComment?_plain hclose hopen, ← htail, this]
      rfl

/-- A slash that begins no comment stands for itself. -/
theorem slash_of_ne {rest : List Char} (hline : rest.head? ≠ some '/')
    (hblock : rest.head? ≠ some '*') : slash rest = sign .slash := by
  unfold slash
  split
  · exact absurd rfl hline
  · exact absurd rfl hblock
  · rfl

/-- A block comment is closed by its last delimiter. -/
theorem closes_comment {inside : List Char} (h : (slash ('*' :: inside)).Faultless) :
    Closes slash ('*' :: inside) := by
  cases hclose : closeComment? 0 inside with
  | none => exact absurd (by simp [slash, hclose]) (h .unclosedComment 0)
  | some n =>
      obtain ⟨inside, behind, rfl, rfl, hagain⟩ := exists_of_closeComment? hclose
      refine ⟨'*' :: (inside ++ ['/']), behind, by simp, ?_, fun other => ?_,
        by simp [List.getLast?_cons]⟩
      · simp [slash, hclose]
      · simp [slash, hclose, hagain]

theorem ends_slash {rest : List Char} (h : (slash rest).Faultless) : Ends slash rest := by
  by_cases hline : rest.head? = some '/'
  · obtain ⟨line, rfl⟩ := List.head?_eq_some_iff.1 hline
    refine ⟨'/' :: line.takeWhile (· != '\n'), line.dropWhile (· != '\n'), ?_, ?_,
      fun other hother => ?_, fun hlast => ?_⟩
    · rw [List.cons_append, List.takeWhile_append_dropWhile]
    · rw [List.cons_append, List.takeWhile_append_dropWhile]
      rfl
    · rw [List.cons_append, List.cons_append, List.takeWhile_append_dropWhile]
      simp only [slash, (takeWhile_alike hother).1]
    · cases hused : line.takeWhile (· != '\n') with
      | nil => simp [hused] at hlast
      | cons d used =>
          rw [hused, List.getLast?_cons_cons] at hlast
          exact getLast?_takeWhile_ne rfl line (hused ▸ hlast)
  by_cases hblock : rest.head? = some '*'
  · obtain ⟨inside, rfl⟩ := List.head?_eq_some_iff.1 hblock
    exact (closes_comment h).ends
  · have hrest := slash_of_ne hline hblock
    refine ends_at_once (by rw [hrest]; rfl) fun other hother => ?_
    rw [hrest, slash_of_ne (hother.head?_ne hline) (hother.head?_ne hblock)]

/-! ## Lexemes -/

/-- A lexeme without fault that can be written, if it is a token, shows where it is over. -/
theorem ends_of {c : Char} {rest : List Char} (hw : (of c rest).Writable)
    (h : (of c rest).Faultless) : Ends (of c) rest := by
  by_cases hword : startsWord c = true
  · have hof : of c = word c := funext fun rest => if_pos hword
    rw [hof] at hw ⊢
    exact ends_word hw
  by_cases hdigit : c.isDigit = true
  · have hof : of c = fun rest => number (c :: rest) :=
      funext fun rest => (if_neg hword).trans (if_pos hdigit)
    rw [hof] at h ⊢
    exact ends_number h (chars_readNumber_ne_nil (.inl hdigit) rest)
  by_cases hblank : isBlank c = true
  · rw [show of c = blanks from funext (of_blank hblank)]
    exact ends_blanks rest
  have hof := h
  unfold of at hof
  rw [if_neg hword, if_neg hdigit, if_neg hblank] at hof
  split at hof
  case h_2 => exact (closes_string h).ends
  case h_3 => exact (closes_character h).ends
  case h_4 => exact ends_point h
  case h_5 => exact ends_slash h
  case h_6 => exact ends_bang h
  case h_7 => exact ends_signOrEquals _ _ rest
  case h_8 => exact ends_signOrEquals _ _ rest
  case h_9 => exact ends_signOrEquals _ _ rest
  case h_22 => exact absurd rfl (hof _ _)
  all_goals exact ends_sign _ rest

end Lexeme

end Bucket.Lexer
