/-
# Comments and blanks stand for one blank

A comment, or some blanks, that reading a text comes to without a fault may be exchanged for a single
blank. The same tokens are read, or the same fault is found behind the same tokens
(`Source.outline_separator`). A lexeme in front of it is the same in front of a blank, for it is closed
there (`Lexer.Lexeme.of_append_blank`), and what stands behind is read as it is alone.
-/
import Bucket.Proofs.Lexing.Concatenation
import Bucket.Proofs.Lexing.Tiling

namespace Bucket

open Lexer

/-! ## Tokens without places -/

/-- What reading a text gives, apart from places: the kinds of the tokens, and the code of the fault
behind them if there is one. -/
structure Outline where
  kinds : List Token.Kind
  fault : Option String
  deriving DecidableEq

namespace Outline

/-- Puts a token in front of others. -/
def cons (k : Token.Kind) (o : Outline) : Outline := ⟨k :: o.kinds, o.fault⟩

end Outline

/-- Tokens without their places. -/
def Tokens.outline (ts : Tokens) : Outline :=
  ⟨ts.tokens.map (·.kind), match ts.stop with | .ok _ => none | .error d => some d.code⟩

theorem Tokens.outline_cons (t : Token) (ts : Tokens) :
    (ts.cons t).outline = ts.outline.cons t.kind := rfl

/-- Whether reading one token has the same result in two places, apart from these. -/
inductive PulledAlike : Except Diagnostic Token × Cursor → Except Diagnostic Token × Cursor → Prop where
  | token {t u : Token} {next next' : Cursor} :
      t.kind = u.kind → next.rest = next'.rest → PulledAlike (.ok t, next) (.ok u, next')
  | fault {d e : Diagnostic} {next next' : Cursor} :
      d.code = e.code → PulledAlike (.error d, next) (.error e, next')

namespace Cursor

/-- The text that is left decides which token is read. -/
theorem pulledAlike {c c' : Cursor} (h : c.rest = c'.rest) : PulledAlike c.pull c'.pull := by
  have hpass : ∀ {c c' : Cursor} (l : Lexeme), c.rest = c'.rest → (c.pass l).rest = (c'.pass l).rest :=
    fun _ h => congrArg (List.drop _) h
  have hlexeme : ∀ {c c' : Cursor}, c.rest = c'.rest → c'.lexeme? = c.lexeme? := by
    intro c c' h
    rw [lexeme?, lexeme?, h]
  fun_induction pull c generalizing c' with
  | case1 c hl =>
      rw [pull_of_end ((hlexeme h).trans hl)]
      exact .token rfl h
  | case2 c l hl k hk =>
      rw [pull_of_token ((hlexeme h).trans hl) hk]
      exact .token rfl (hpass l h)
  | case3 c l hl hskipped ih =>
      rw [pull_of_skipped ((hlexeme h).trans hl) hskipped]
      exact ih (hpass l h)
  | case4 c l hl fault offset hfault =>
      rw [pull_of_fault ((hlexeme h).trans hl) hfault]
      exact .fault rfl

/-- The text that is left decides which tokens are read. -/
theorem outline_tokens_congr {c c' : Cursor} (h : c.rest = c'.rest) :
    c.tokens.outline = c'.tokens.outline := by
  have halike := pulledAlike h
  fun_induction tokens c generalizing c' with
  | case1 c d next hpull =>
      rw [hpull] at halike
      cases hpull' : c'.pull with
      | mk result next' =>
          rw [hpull'] at halike
          cases halike with
          | fault hcode =>
              rw [tokens_of_fault hpull', Tokens.outline, Tokens.outline]
              dsimp only
              rw [hcode]
  | case2 c t next hpull ht =>
      rw [hpull] at halike
      cases hpull' : c'.pull with
      | mk result next' =>
          rw [hpull'] at halike
          cases halike with
          | token hkind hrest =>
              rw [tokens_of_end hpull' (by rwa [Token.isEndOfFile, ← hkind])]
              rfl
  | case3 c t next hpull ht ih =>
      rw [hpull] at halike
      cases hpull' : c'.pull with
      | mk result next' =>
          rw [hpull'] at halike
          cases halike with
          | token hkind hrest =>
              rw [tokens_of_pull hpull' (by rwa [Token.isEndOfFile, ← hkind, ← Bool.not_eq_true]),
                Tokens.outline_cons, Tokens.outline_cons, hkind, ih hrest (pulledAlike hrest)]

end Cursor

/-- The outline of the tokens of a text. -/
def outline (text : List Char) : Outline := (Cursor.mk .first text).tokens.outline

theorem outline_eq (c : Cursor) : c.tokens.outline = outline c.rest :=
  Cursor.outline_tokens_congr rfl

/-- A blank means nothing. -/
theorem outline_blank {b : Char} (hb : isBlank b = true) (rest : List Char) :
    outline (b :: rest) = outline rest := by
  rw [outline, Cursor.tokens_congr (Lexes.pull_blank hb .first rest), outline_eq]

theorem outline_blanks {run : List Char} (hrun : ∀ b ∈ run, isBlank b = true) (rest : List Char) :
    outline (run ++ rest) = outline rest := by
  induction run with
  | nil => rfl
  | cons b run ih =>
      rw [List.forall_mem_cons] at hrun
      rw [List.cons_append, outline_blank hrun.1, ih hrun.2]

/-- What stands at the head of a text and is no fault comes in front of what stands behind it. -/
theorem outline_of_lexeme {c : Char} {used rest : List Char} (h : (Lexeme.of c (used ++ rest)).Faultless)
    (hmore : (Lexeme.of c (used ++ rest)).more = used.length) :
    outline (c :: (used ++ rest)) = match (Lexeme.of c (used ++ rest)).meaning with
      | .token k => (outline rest).cons k
      | _ => outline rest := by
  have hl : (Cursor.mk .first (c :: (used ++ rest))).lexeme? = some (.of c (used ++ rest)) := rfl
  have hpass : ((Cursor.mk .first (c :: (used ++ rest))).pass (.of c (used ++ rest))).rest = rest :=
    congrArg Cursor.rest (Cursor.pass_append .first c hmore rest)
  rw [outline]
  split
  · rename_i k hk
    rw [Cursor.tokens_of_pull (Cursor.pull_of_token hl hk) (Lexeme.isEndOfFile_of_token hk),
      Tokens.outline_cons, outline_eq, hpass]
  · rename_i hnot
    cases hmeaning : (Lexeme.of c (used ++ rest)).meaning with
    | token k => exact absurd hmeaning (hnot k)
    | skipped => rw [Cursor.tokens_congr (Cursor.pull_of_skipped hl hmeaning), outline_eq, hpass]
    | fault fault offset => exact absurd hmeaning (h fault offset)

/-- A lexeme that is the same in front of two texts that mean the same. -/
theorem outline_congr_behind {c : Char} {used rest rest' : List Char}
    (h : (Lexeme.of c (used ++ rest)).Faultless)
    (hmore : (Lexeme.of c (used ++ rest)).more = used.length)
    (hagain : Lexeme.of c (used ++ rest') = Lexeme.of c (used ++ rest))
    (hrest : outline rest = outline rest') :
    outline (c :: (used ++ rest)) = outline (c :: (used ++ rest')) := by
  rw [outline_of_lexeme h hmore, outline_of_lexeme (hagain ▸ h) (hagain ▸ hmore), hagain, hrest]

/-! ## In front of a blank -/

namespace Lexer.Lexeme

/-- What is closed by the last character of a text is the same in front of anything. -/
theorem Closes.read_append {read : List Char → Lexeme} {text : List Char} (h : Closes read text)
    (hmore : (read text).more = text.length) (other : List Char) : read (text ++ other) = read text := by
  obtain ⟨used, behind, rfl, hused, hread, -⟩ := h
  obtain rfl : behind = [] := by
    rw [hmore, List.length_append] at hused
    exact List.length_eq_zero_iff.1 (by omega)
  rw [List.append_nil] at hread ⊢
  exact hread other

theorem word_append_blank {c : Char} {used : List Char} (hmore : (word c used).more = used.length)
    (rest : List Char) : word c (used ++ ' ' :: rest) = word c used := by
  -- The word goes up to the end of the text, and is over where a blank stands.
  have hrun : used.takeWhile continuesWord = used :=
    (List.takeWhile_prefix _).eq_of_length hmore
  have hword : ∀ d ∈ used, continuesWord d = true := List.takeWhile_eq_self_iff.1 hrun
  have hblank : (' ' :: rest).head?.any continuesWord = false := by
    rw [List.head?_cons, Option.any_some]
    decide +kernel
  have hshares : sharesFirstByte ' ' = false := by decide +kernel
  have hnothing : used.dropWhile continuesWord = [] := by simpa using hword
  have htake := takeWhile_run hword hblank
  have hdrop := dropWhile_run hword hblank
  simp only [word, htake, hdrop, hrun, hnothing, wordKind, List.head?_cons, List.head?_nil,
    Option.any_some, Option.any_none, hshares]

theorem number_append_blank {c : Char} {used : List Char} (h : (number (c :: used)).Faultless)
    (hne : (readNumber (c :: used)).1.chars ≠ [])
    (hmore : (number (c :: used)).more = used.length) (rest : List Char) :
    number (c :: (used ++ ' ' :: rest)) = number (c :: used) := by
  have happend := readNumber_append (c :: used)
  cases hread : readNumber (c :: used) with
  | mk n behind =>
    rw [more_number] at hmore
    rw [hread] at happend hne hmore
    dsimp only at happend hmore
    obtain rfl : behind = [] := by
      have hlength := congrArg List.length happend
      have hpos : 0 < n.chars.length := List.length_pos_iff.2 hne
      rw [List.length_append, List.length_cons] at hlength
      exact List.length_eq_zero_iff.1 (by omega)
    rw [List.append_nil] at happend
    cases hvalue : n.outcome [] with
    | error e =>
        obtain ⟨fault, offset⟩ := e
        refine absurd ?_ (h fault offset)
        simp only [number, hread, hvalue]
    | ok value =>
        have hover : (' ' :: rest).head?.any n.goesOn = false :=
          n.any_goesOn_of_endsNumber (show endsNumber ' ' = true by decide +kernel)
        have hletter : (' ' :: rest).head?.any continuesNumber = false := by
          rw [List.head?_cons, Option.any_some]
          decide +kernel
        have hself := number_alike hread hvalue (.inl rfl)
        have hagain := number_again hread hvalue hover hletter
        rw [happend, List.append_nil] at hself
        rw [happend] at hagain
        rw [hself]
        exact hagain

theorem signOrEquals_append_blank (alone withEquals : Symbol) {used : List Char}
    (hmore : (signOrEquals alone withEquals used).more = used.length) (rest : List Char) :
    signOrEquals alone withEquals (used ++ ' ' :: rest) = signOrEquals alone withEquals used := by
  unfold signOrEquals at hmore
  split at hmore
  · rfl
  · obtain rfl := List.length_eq_zero_iff.1 hmore.symm
    rfl

theorem bang_append_blank {used : List Char} (h : (bang used).Faultless) (rest : List Char) :
    bang (used ++ ' ' :: rest) = bang used := by
  unfold bang at h
  split at h
  · rfl
  · exact absurd rfl (h _ _)

theorem point_append_blank {used : List Char} (h : (of '.' used).Faultless)
    (hmore : (of '.' used).more = used.length) (rest : List Char) :
    of '.' (used ++ ' ' :: rest) = of '.' used := by
  cases used with
  | nil =>
      have hblank : ¬ Char.isDigit ' ' = true := by decide
      exact if_neg hblank
  | cons d used =>
      by_cases hdigit : d.isDigit = true
      · have hnumber : ∀ text, of '.' (d :: text) = number ('.' :: d :: text) := fun _ => if_pos hdigit
        rw [hnumber] at h hmore
        rw [List.cons_append, hnumber, hnumber]
        exact number_append_blank h (chars_readNumber_ne_nil (.inr rfl) _) hmore rest
      · have hsign : of '.' (d :: used) = sign .period := if_neg hdigit
        rw [hsign] at hmore
        cases hmore

theorem slash_append_blank {used : List Char} (hline : used.head? ≠ some '/')
    (h : (slash used).Faultless) (hmore : (slash used).more = used.length) (rest : List Char) :
    slash (used ++ ' ' :: rest) = slash used := by
  by_cases hblock : used.head? = some '*'
  · obtain ⟨inside, rfl⟩ := List.head?_eq_some_iff.1 hblock
    exact (closes_comment h).read_append hmore _
  · rw [slash_of_ne hline hblock] at hmore
    obtain rfl := List.length_eq_zero_iff.1 hmore.symm
    rfl

/-- A lexeme without fault that goes up to the end of a text is the same in front of a blank. Blanks
and line comments go on with what follows. -/
theorem of_append_blank {c : Char} {used : List Char} (h : (of c used).Faultless)
    (hmore : (of c used).more = used.length) (hblank : ¬ isBlank c = true)
    (hline : c = '/' → used.head? ≠ some '/') (rest : List Char) :
    of c (used ++ ' ' :: rest) = of c used := by
  by_cases hword : startsWord c = true
  · have hof : of c = word c := funext fun rest => if_pos hword
    rw [hof] at hmore ⊢
    exact word_append_blank hmore rest
  by_cases hdigit : c.isDigit = true
  · have hof : of c = fun rest => number (c :: rest) :=
      funext fun rest => (if_neg hword).trans (if_pos hdigit)
    rw [hof] at h hmore ⊢
    exact number_append_blank h (chars_readNumber_ne_nil (.inl hdigit) used) hmore rest
  have hof := h
  unfold of at hof
  rw [if_neg hword, if_neg hdigit, if_neg hblank] at hof
  split at hof
  case h_2 => exact (closes_string h).read_append hmore _
  case h_3 => exact (closes_character h).read_append hmore _
  case h_4 => exact point_append_blank h hmore rest
  case h_5 => exact slash_append_blank (hline rfl) h hmore rest
  case h_6 => exact bang_append_blank h rest
  case h_7 => exact signOrEquals_append_blank _ _ hmore rest
  case h_8 => exact signOrEquals_append_blank _ _ hmore rest
  case h_9 => exact signOrEquals_append_blank _ _ hmore rest
  case h_22 => exact absurd rfl (hof _ _)
  all_goals rfl

end Lexer.Lexeme

/-! ## Comments -/

/-- How many characters there are up to the end of a block comment once the innermost one of those that
are open in it, or the comment itself, is closed. -/
def Lexer.closeOuter? (inner : Nat) (text : List Char) : Option Nat :=
  match inner with
  | 0 => some 0
  | inner + 1 => closeComment? inner text

/-- A body closes the innermost comment. -/
theorem CommentBody.closeComment?_append {body : List Char} (h : CommentBody body) (inner : Nat)
    (rest : List Char) :
    closeComment? inner (body ++ rest) = (closeOuter? inner rest).map (· + body.length) := by
  induction h generalizing inner rest with
  | close => cases inner <;> simp [closeComment?, closeOuter?]
  | @nested inside after _ _ ihinside ihafter =>
      -- The comment that is opened here is closed by its own body, and the rest by what follows that.
      have hopen : closeComment? inner ('/' :: '*' :: (inside ++ (after ++ rest))) =
          (closeComment? (inner + 1) (inside ++ (after ++ rest))).map (· + 2) := by
        cases inner <;> simp [closeComment?]
      rw [List.cons_append, List.cons_append, List.append_assoc, hopen, ihinside, closeOuter?, ihafter,
        Option.map_map, Option.map_map]
      refine congrArg (Option.map · _) (funext fun n => ?_)
      simp only [Function.comp_apply, List.length_cons, List.length_append]
      omega
  | @other a b body hclose hopen _ ih =>
      have hplain := Lexeme.closeComment?_plain hclose hopen inner (body ++ rest)
      have hbody := ih inner rest
      rw [List.cons_append] at hbody
      rw [List.cons_append, List.cons_append, hplain, hbody, Option.map_map]
      rfl

theorem CommentBody.closeComment?_zero {body : List Char} (h : CommentBody body) (rest : List Char) :
    closeComment? 0 (body ++ rest) = some body.length := by
  rw [h.closeComment?_append, closeOuter?, Option.map_some, Nat.zero_add]

/-- What separates tokens in front of a text: a comment, where one on a line goes up to the end of
that, or some blanks. -/
inductive Separator (behind : List Char) : List Char → Prop where
  | lineComment {line : List Char} :
      '\n' ∉ line → behind = [] ∨ behind.head? = some '\n' → Separator behind ('/' :: '/' :: line)
  | blockComment {body : List Char} : CommentBody body → Separator behind ('/' :: '*' :: body)
  | blanks {b : Char} {run : List Char} :
      isBlank b = true → (∀ c ∈ run, isBlank c = true) → Separator behind (b :: run)

namespace Separator

variable {separator behind : List Char}

/-- What separates tokens begins with a slash or a blank, and with what is skipped. -/
theorem exists_head (h : Separator behind separator) :
    ∃ c rest, separator = c :: rest ∧ (c = '/' ∨ isBlank c = true) ∧
      (Lexeme.of c (rest ++ behind)).meaning = .skipped := by
  cases h with
  | lineComment _ _ => exact ⟨_, _, rfl, .inl rfl, rfl⟩
  | @blockComment body hbody =>
      refine ⟨_, _, rfl, .inl rfl, ?_⟩
      show (Lexeme.slash ('*' :: (body ++ behind))).meaning = .skipped
      rw [Lexeme.slash, hbody.closeComment?_zero]
  | @blanks b run hb _ =>
      refine ⟨_, _, rfl, .inr hb, ?_⟩
      rw [Lexeme.of_blank hb]
      rfl

/-- What separates tokens means nothing. -/
theorem outline_append (h : Separator behind separator) :
    outline (separator ++ behind) = outline behind := by
  have hskipped : ∀ (c : Char) (used : List Char),
      Lexeme.of c (used ++ behind) = ⟨.skipped, used.length⟩ →
      outline (c :: (used ++ behind)) = outline behind := by
    intro c used hl
    rw [outline_of_lexeme (Lexeme.faultless_of_skipped (by rw [hl])) (by rw [hl]), hl]
  cases h with
  | @lineComment line hline hbehind =>
      refine hskipped '/' ('/' :: line) ?_
      have hrun : ∀ c ∈ line, (c != '\n') = true := by
        intro c hc
        rw [bne_iff_ne]
        rintro rfl
        exact hline hc
      have hover : behind.head?.any (· != '\n') = false := by
        rcases hbehind with rfl | hbehind
        · rfl
        · rw [hbehind]
          rfl
      show Lexeme.slash ('/' :: (line ++ behind)) = _
      rw [Lexeme.slash, takeWhile_run hrun hover, List.length_cons]
  | @blockComment body hbody =>
      refine hskipped '/' ('*' :: body) ?_
      show Lexeme.slash ('*' :: (body ++ behind)) = _
      rw [Lexeme.slash, hbody.closeComment?_zero, List.length_cons]
  | @blanks b run hb hrun => exact outline_blanks (List.forall_mem_cons.2 ⟨hb, hrun⟩) behind

end Separator

namespace Separator

variable {separator behind : List Char}

/-- A lexeme that is not a run of blanks is the same when what separates tokens behind it, or some way
further down, is a blank. -/
theorem of_eq {c : Char} {used front : List Char} (h : Separator behind separator)
    (hover : Lexeme.Over (.of c) used (front ++ (separator ++ behind)))
    (hfaultless : (Lexeme.of c (used ++ (front ++ (separator ++ behind)))).Faultless)
    (hblank : ¬ isBlank c = true) :
    Lexeme.of c (used ++ (front ++ ' ' :: behind)) =
      Lexeme.of c (used ++ (front ++ (separator ++ behind))) := by
  cases front with
  | cons d front => exact hover.read_eq (d :: front ++ ' ' :: behind) (.inr rfl)
  | nil =>
      obtain ⟨d, rest, rfl, hd, -⟩ := h.exists_head
      -- A line comment is over where a newline stands, and no separator begins with one.
      have hline : c = '/' → used.head? ≠ some '/' := by
        rintro rfl hslash
        obtain ⟨line, rfl⟩ := List.head?_eq_some_iff.1 hslash
        have hlength : ((line ++ d :: (rest ++ behind)).takeWhile (· != '\n')).length = line.length :=
          Nat.succ.inj hover.more_eq
        have hstop := any_head?_dropWhile (· != '\n') (line ++ d :: (rest ++ behind))
        rw [← drop_length_takeWhile, hlength, List.drop_left] at hstop
        obtain rfl : d = '\n' := by simpa using hstop
        exact absurd hd (by decide)
      have halone := hover.read_eq [] (.inl rfl)
      have hmore := hover.more_eq
      rw [← halone, List.append_nil] at hfaultless hmore ⊢
      exact Lexeme.of_append_blank hfaultless hmore hblank hline behind

/-- What stands in front of what separates tokens means the same in front of a blank. -/
theorem outline_congr_front {c : Char} {used front : List Char} (h : Separator behind separator)
    (hover : Lexeme.Over (.of c) used (front ++ (separator ++ behind)))
    (hfaultless : (Lexeme.of c (used ++ (front ++ (separator ++ behind)))).Faultless)
    (hfront : outline (front ++ (separator ++ behind)) = outline (front ++ ' ' :: behind)) :
    outline (c :: (used ++ (front ++ (separator ++ behind)))) =
      outline (c :: (used ++ (front ++ ' ' :: behind))) := by
  by_cases hblank : isBlank c = true
  · -- A run of blanks means nothing, however long it is.
    have hused : ∀ b ∈ used, isBlank b = true := by
      have hmore := hover.more_eq
      have halone := hover.read_eq [] (.inl rfl)
      rw [← halone, List.append_nil, Lexeme.of_blank hblank] at hmore
      have hrun : used.takeWhile isBlank = used := (List.takeWhile_prefix _).eq_of_length hmore
      exact List.takeWhile_eq_self_iff.1 hrun
    have hrun : ∀ rest, outline (c :: (used ++ rest)) = outline rest :=
      outline_blanks (List.forall_mem_cons.2 ⟨hblank, hused⟩)
    rw [hrun, hrun, hfront]
  · exact outline_congr_behind hfaultless hover.more_eq (h.of_eq hover hfaultless hblank) hfront

end Separator

/-! ## Reaching a place -/

/-- Whether reading leads from one place in a text to another one without a fault. Blanks may be passed
one at a time, so that a run of them can be reached in its middle. -/
inductive Cursor.Reaches : Cursor → Cursor → Prop where
  | here (c : Cursor) : Reaches c c
  | blank {p : Position} {b : Char} {rest : List Char} {c : Cursor} :
      isBlank b = true → Reaches ⟨p.advance b, rest⟩ c → Reaches ⟨p, b :: rest⟩ c
  | pass {c c' : Cursor} {l : Lexeme} :
      c.lexeme? = some l → l.Faultless → Reaches (c.pass l) c' → Reaches c c'

namespace Cursor.Reaches

variable {c c' : Cursor} {separator behind : List Char}

/-- No fault stands where reading leads on. -/
theorem faultless {l : Lexeme} (h : c.Reaches c')
    (hend : ∀ l, c'.lexeme? = some l → l.Faultless) (hl : c.lexeme? = some l) : l.Faultless := by
  cases h with
  | here => exact hend l hl
  | @blank p b rest _ hb _ =>
      obtain rfl := Option.some.inj hl
      rw [Lexeme.of_blank hb]
      exact Lexeme.faultless_of_skipped rfl
  | pass hl' hfaultless _ =>
      obtain rfl := Option.some.inj (hl'.symm.trans hl)
      exact hfaultless

/-- What is read on the way to a place without a fault can be written, if it is a token. -/
theorem writable {head : Char} {rest : List Char} {p : Position}
    (h : ((Cursor.mk p (head :: rest)).pass (.of head rest)).Reaches c')
    (hend : ∀ l, c'.lexeme? = some l → l.Faultless) : (Lexeme.of head rest).Writable := by
  intro k hk
  rcases Lexeme.isWritable_of_token hk with hw | ⟨-, d, tail, hdrop, hfault⟩
  · exact hw
  · have hl : ((Cursor.mk p (head :: rest)).pass (.of head rest)).lexeme? = some (.of d tail) := by
      rw [lexeme?, Cursor.pass, skip, List.drop_succ_cons, hdrop]
    exact absurd hfault (h.faultless hend hl _ _)

/-- What separates tokens may be exchanged for a blank where reading comes to it. -/
theorem outline_eq (h : c.Reaches c') (hrest : c'.rest = separator ++ behind)
    (hseparator : Separator behind separator) :
    ∃ front, c.rest = front ++ (separator ++ behind) ∧
      outline (front ++ (separator ++ behind)) = outline (front ++ ' ' :: behind) := by
  have hend : ∀ l, c'.lexeme? = some l → l.Faultless := by
    intro l hl
    obtain ⟨head, rest, rfl, -, hskipped⟩ := hseparator.exists_head
    rw [lexeme?, hrest, List.cons_append] at hl
    obtain rfl := Option.some.inj hl
    exact Lexeme.faultless_of_skipped hskipped
  induction h with
  | here c =>
      exact ⟨[], hrest, hseparator.outline_append.trans (outline_blank rfl behind).symm⟩
  | @blank p b rest c' hb _ ih =>
      obtain ⟨front, rfl, hfront⟩ := ih hrest hend
      refine ⟨b :: front, rfl, ?_⟩
      rw [List.cons_append, List.cons_append, outline_blank hb, outline_blank hb, hfront]
  | @pass c c' l hl hfaultless hreaches ih =>
      obtain ⟨p, rest⟩ := c
      obtain ⟨head, rest, rfl, rfl⟩ := exists_of_lexeme? hl
      have hw := hreaches.writable hend
      obtain ⟨used, after, rfl, hover⟩ := Lexeme.ends_of hw hfaultless
      have hpass : ((Cursor.mk p (head :: (used ++ after))).pass (.of head (used ++ after))).rest =
          after := by
        simp [Cursor.pass, skip, hover.more_eq]
      obtain ⟨front, hsplit, hfront⟩ := ih hrest hend
      obtain rfl : after = front ++ (separator ++ behind) := hpass.symm.trans hsplit
      refine ⟨head :: (used ++ front), by simp, ?_⟩
      rw [List.cons_append, List.cons_append, List.append_assoc, List.append_assoc]
      exact hseparator.outline_congr_front hover hfaultless hfront

end Cursor.Reaches

/-! ## Sources -/

namespace Source

/-- What separates tokens may be exchanged for a blank. Where reading a text comes to a comment, or to
some blanks, without a fault, the text with a single blank in place of these has tokens of the same kinds
in the same order, and where one of the two has a fault behind them, the other one has a fault of the
same code. -/
theorem outline_separator (name : String) {p separator s : String} {c : Cursor}
    (hseparator : Separator s.toList separator.toList)
    (hreaches : (ofText name (p ++ separator ++ s)).cursor.Reaches c)
    (hrest : c.rest = separator.toList ++ s.toList) :
    (ofText name (p ++ separator ++ s)).tokens.outline =
      (ofText name (p ++ " " ++ s)).tokens.outline := by
  have hchars : ∀ middle : String, (middle ++ s).toList.head? ≠ some byteOrderMark →
      (ofText name (p ++ middle ++ s)).cursor.rest =
        dropByteOrderMark p.toList ++ (middle.toList ++ s.toList) := by
    intro middle hmark
    rw [cursor, Cursor.ofChars, chars_ofText, String.append_assoc, String.toList_append,
      dropByteOrderMark_append hmark, String.toList_append]
  have hmark : (separator ++ s).toList.head? ≠ some byteOrderMark := by
    obtain ⟨d, rest, hd, hhead, -⟩ := hseparator.exists_head
    rw [String.toList_append, hd]
    rintro ⟨⟩
    exact absurd hhead (by decide)
  have hmarkBlank : (" " ++ s).toList.head? ≠ some byteOrderMark := by
    rw [String.toList_append]
    exact (by decide : some ' ' ≠ some byteOrderMark)
  obtain ⟨front, hsplit, houtline⟩ := hreaches.outline_eq hrest hseparator
  obtain rfl : front = dropByteOrderMark p.toList :=
    List.append_cancel_right (hsplit.symm.trans (hchars separator hmark))
  rw [Source.tokens, Source.tokens, Bucket.outline_eq, Bucket.outline_eq, hchars separator hmark,
    hchars " " hmarkBlank, houtline]
  rfl

/-- A comment of two lines with another one in it keeps a number apart from a point, as a blank does. -/
theorem outline_separator_number :
    let s := ofText "in" ("1" ++ "/*/*\n*/*/" ++ ".5e")
    let c : Cursor := ⟨⟨1, 2⟩, "/*/*\n*/*/.5e".toList⟩
    CommentBody "/*\n*/*/".toList ∧ s.cursor.Reaches c ∧
    s.tokens.outline = ⟨[.literal (.integer 1)], some "EL08"⟩ ∧
    s.tokens.outline = (ofText "in" ("1" ++ " " ++ ".5e")).tokens.outline := by
  intro s c
  have hbody : CommentBody "/*\n*/*/".toList :=
    .nested (.other (by decide) (by decide) .close) .close
  have hl : s.cursor.lexeme? = some ⟨.token (.literal (.integer 1)), 0⟩ := by decide +kernel
  have hpass : s.cursor.pass ⟨.token (.literal (.integer 1)), 0⟩ = c := by decide +kernel
  have hreaches : s.cursor.Reaches c :=
    .pass hl (Lexeme.faultless_of_token rfl) (hpass ▸ .here c)
  have hcomment : Separator ".5e".toList "/*/*\n*/*/".toList := .blockComment hbody
  exact ⟨hbody, hreaches, by decide +kernel, outline_separator "in" hcomment hreaches (by decide)⟩

end Source

end Bucket
