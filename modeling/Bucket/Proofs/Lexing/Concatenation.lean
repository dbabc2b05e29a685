/-
# Words of texts one behind the other

In a text of whole lines nothing is left open: its tokens are read in the same way when more text stands
behind it (`Cursor.tokens_followedBy`). What stands behind is read as it is alone, some lines further
down. So the tokens of the joined text are those of the two texts (`Source.tokens_of_append`).
-/
import Bucket.Proofs.Lexing.Extent
import Bucket.Proofs.Parsing.Motion

namespace Bucket

open Lexer

/-! ## Whole lines -/

/-- Whether a text is empty or ends with a newline. -/
def WholeLines (text : List Char) : Prop := text = [] ∨ text.getLast? = some '\n'

/-- What is left of whole lines is made of whole lines. -/
theorem WholeLines.of_append {a b : List Char} (h : WholeLines (a ++ b)) : WholeLines b := by
  cases b with
  | nil => exact .inl rfl
  | cons c b =>
      rcases h with h | h
      · simp at h
      · exact .inr (by simpa using h)

/-- In whole lines a lexeme without fault is over before the text is, but for the last newline. -/
theorem Lexer.Lexeme.ends_in_lines {c : Char} {rest : List Char} (hlines : WholeLines (c :: rest))
    (hw : (of c rest).Writable) (h : (of c rest).Faultless) :
    ∃ used behind, rest = used ++ behind ∧ Over (of c) used behind ∧
      (behind = [] → used = [] ∧ c = '\n') := by
  obtain ⟨used, behind, rfl, hover⟩ := ends_of hw h
  refine ⟨used, behind, rfl, hover, ?_⟩
  rintro rfl
  have hlast : (c :: used).getLast? = some '\n' := by
    rw [List.append_nil] at hlines
    exact hlines.resolve_left (List.cons_ne_nil c used)
  cases used with
  | nil => exact ⟨rfl, Option.some.inj hlast⟩
  | cons d used => exact absurd (List.getLast?_cons_cons ▸ hlast) hover.not_newline

namespace Cursor

/-! ## More text behind -/

/-- The cursor in a text that has more text behind it. -/
def followedBy (c : Cursor) (more : List Char) : Cursor := ⟨c.position, c.rest ++ more⟩

variable {c next : Cursor} {t : Token}

/-- What stands in whole lines is the same when more text stands behind these, and so is what is left
of them. Only the last newline leaves nothing. -/
theorem lexeme?_followedBy {l : Lexeme} (hl : c.lexeme? = some l) (hlines : WholeLines c.rest)
    (hw : l.Writable) (h : l.Faultless) (more : List Char) :
    (c.followedBy more).lexeme? = some l ∧
      (c.followedBy more).pass l = (c.pass l).followedBy more ∧ WholeLines (c.pass l).rest ∧
      ((c.pass l).rest = [] → l.meaning = .token (.symbol .newline)) := by
  obtain ⟨p, rest⟩ := c
  obtain ⟨head, rest, rfl, rfl⟩ := exists_of_lexeme? hl
  obtain ⟨used, behind, rfl, hover, hlast⟩ := Lexeme.ends_in_lines hlines hw h
  have hpass := pass_append p head hover.more_eq behind
  have hlines' : WholeLines behind := .of_append (a := head :: used) hlines
  rw [hpass]
  refine ⟨?_, ?_, hlines', fun hnil => ?_⟩
  · -- Either the same character stands behind the lexeme, or the lexeme is a newline.
    cases behind with
    | nil =>
        obtain ⟨rfl, rfl⟩ := hlast rfl
        rfl
    | cons d behind =>
        have hagain := hover.read_eq (d :: behind ++ more) (.inr rfl)
        rw [← hagain, ← List.append_assoc]
        rfl
  · simp [pass, skip, followedBy, hover.more_eq, List.append_assoc]
  · obtain ⟨rfl, rfl⟩ := hlast hnil
    rfl

/-- A token of whole lines is read when more text stands behind these. Only the last newline leaves
nothing. -/
theorem pull_followedBy (h : c.pull = (.ok t, next)) (ht : t.isEndOfFile = false)
    (hw : t.kind.isWritable = true) (hlines : WholeLines c.rest) (more : List Char) :
    (c.followedBy more).pull = (.ok t, next.followedBy more) ∧ WholeLines next.rest ∧
      (next.rest = [] → t.kind = .symbol .newline) := by
  fun_induction pull c with
  | case1 c =>
      obtain rfl := Except.ok.inj (Prod.mk.inj h).1
      cases ht
  | case2 c l hl k hk =>
      obtain ⟨hok, rfl⟩ := Prod.mk.inj h
      obtain rfl := Except.ok.inj hok
      obtain ⟨hagain, hpass, hlines', hlast⟩ := lexeme?_followedBy hl hlines
        (Lexeme.writable_of_token hk hw) (Lexeme.faultless_of_token hk) more
      refine ⟨?_, hlines', fun hnil => Meaning.token.inj (hk.symm.trans (hlast hnil))⟩
      rw [pull_of_token hagain hk, hpass]
      rfl
  | case3 c l hl hskipped ih =>
      obtain ⟨hagain, hpass, hlines', -⟩ := lexeme?_followedBy hl hlines
        (Lexeme.writable_of_skipped hskipped) (Lexeme.faultless_of_skipped hskipped) more
      rw [pull_of_skipped hagain hskipped, hpass]
      exact ih h hlines'
  | case4 c l hl => simp at h

/-- The end of the file is read at the end of whole lines only, for nothing that is skipped leads
there. -/
theorem rest_eq_nil_of_pull_end (h : c.pull = (.ok t, next)) (ht : t.isEndOfFile = true)
    (hlines : WholeLines c.rest) : c.rest = [] := by
  fun_induction pull c with
  | case1 c hl => exact rest_eq_nil_of_lexeme? hl
  | case2 c l hl k hk =>
      obtain rfl := Except.ok.inj (Prod.mk.inj h).1
      obtain ⟨head, rest, -, rfl⟩ := exists_of_lexeme? hl
      rw [Token.isEndOfFile, Lexeme.isEndOfFile_of_token hk] at ht
      cases ht
  | case3 c l hl hskipped ih =>
      obtain ⟨-, -, hlines', hlast⟩ := lexeme?_followedBy hl hlines
        (Lexeme.writable_of_skipped hskipped) (Lexeme.faultless_of_skipped hskipped) []
      cases hskipped.symm.trans (hlast (ih h hlines'))
  | case4 c l hl => simp at h

/-- Whole lines without fault and without tokens are empty. -/
theorem rest_eq_nil_of_tokens {e : Position} (hts : c.tokens.tokens = []) (h : c.tokens.stop = .ok e)
    (hlines : WholeLines c.rest) : c.rest = [] := by
  fun_cases tokens c with
  | case1 d next hpull =>
      rw [tokens_of_fault hpull] at h
      cases h
  | case2 t next hpull ht => exact rest_eq_nil_of_pull_end hpull ht hlines
  | case3 t next hpull ht =>
      rw [tokens_of_pull hpull (Bool.eq_false_iff.2 ht)] at hts
      cases hts

end Cursor

/-- Puts tokens in front of others. -/
def Tokens.behind (front : List Token) (ts : Tokens) : Tokens := ⟨front ++ ts.tokens, ts.stop⟩

/-- The tokens of whole lines are read when more text stands behind these, and then its tokens. -/
theorem Cursor.tokens_followedBy {c : Cursor} {e : Position} (h : c.tokens.stop = .ok e)
    (hlines : WholeLines c.rest) (more : List Char) :
    (c.followedBy more).tokens = (Cursor.mk e more).tokens.behind c.tokens.tokens := by
  have hwritable := isWritable_of_mem_tokens h
  fun_induction tokens c with
  | case1 c d next hpull => cases h
  | case2 c t next hpull ht =>
      obtain rfl := Except.ok.inj h
      obtain ⟨p, rest⟩ := c
      obtain rfl : rest = [] := rest_eq_nil_of_pull_end hpull ht hlines
      rw [pull_of_end rfl] at hpull
      obtain rfl := Except.ok.inj (Prod.mk.inj hpull).1
      rfl
  | case3 c t next hpull ht ih =>
      have ht : t.isEndOfFile = false := by simpa using ht
      obtain ⟨hw, hwritable⟩ := List.forall_mem_cons.1 hwritable
      obtain ⟨hagain, hlines', -⟩ := pull_followedBy hpull ht hw hlines more
      rw [tokens_of_pull hagain ht, ih h hlines' hwritable]
      rfl

/-- Behind whole lines the last token is a newline. -/
theorem Cursor.kind_getLast?_tokens {c : Cursor} {e : Position} (h : c.tokens.stop = .ok e)
    (hlines : WholeLines c.rest) :
    ∀ t ∈ c.tokens.tokens.getLast?, t.kind = .symbol .newline := by
  have hwritable := isWritable_of_mem_tokens h
  fun_induction tokens c with
  | case1 c d next hpull => cases h
  | case2 c t next hpull ht => simp
  | case3 c t next hpull ht ih =>
      have ht : t.isEndOfFile = false := by simpa using ht
      obtain ⟨hw, hwritable⟩ := List.forall_mem_cons.1 hwritable
      obtain ⟨-, hlines', hlast⟩ := pull_followedBy hpull ht hw hlines []
      have hrest := ih h hlines' hwritable
      dsimp only [Tokens.cons]
      -- Either more tokens follow, or there is nothing left.
      cases hts : next.tokens.tokens with
      | cons u us => rwa [List.getLast?_cons_cons, ← hts]
      | nil =>
          rintro u hu
          obtain rfl := Option.some.inj hu
          exact hlast (rest_eq_nil_of_tokens hts h hlines')

/-! ## Some lines further down -/

namespace Motion

variable (k : Nat) (p : Position)

theorem down_advance (c : Char) : ((down k).place p).advance c = (down k).place (p.advance c) := by
  simp only [Position.advance, down]
  split
  · rw [Nat.add_right_comm]
  · rfl

/-- A text that begins some lines further down ends as many lines further down. -/
theorem down_after (text : List Char) :
    ((down k).place p).after text = (down k).place (p.after text) := by
  induction text generalizing p with
  | nil => rfl
  | cons c rest ih => rw [Position.after_cons, down_advance, ih, Position.after_cons]

end Motion

/-- A cursor some lines further down. -/
def Cursor.down (k : Nat) (c : Cursor) : Cursor := ⟨(Motion.down k).place c.position, c.rest⟩

/-- Tokens, and the fault behind them, in other places. -/
def Tokens.move (f : Motion) (ts : Tokens) : Tokens :=
  ⟨ts.tokens.map (·.move f), (ts.stop.map f.place).mapError (·.move f)⟩

namespace Cursor

variable (k : Nat) (c : Cursor)

theorem skip_down (n : Nat) : (c.down k).skip n = (c.skip n).down k := by
  rw [skip, skip, down, down, Motion.down_after]

theorem pass_down (l : Lexeme) : (c.down k).pass l = (c.pass l).down k := c.skip_down k _

/-- A token is read in the same way some lines further down. -/
theorem pull_down : (c.down k).pull =
    ((c.pull.1.map (·.move (.down k))).mapError (·.move (.down k)), c.pull.2.down k) := by
  fun_induction pull c with
  | case1 c hl => exact pull_of_end hl
  | case2 c l hl kind hkind =>
      rw [pull_of_token (c := c.down k) hl hkind, pass_down]
      rfl
  | case3 c l hl hskipped ih =>
      rw [pull_of_skipped (c := c.down k) hl hskipped, pass_down, ih]
  | case4 c l hl fault offset hfault =>
      rw [pull_of_fault (c := c.down k) hl hfault, pass_down, skip_down]
      rfl

/-- A text is read in the same way some lines further down. -/
theorem tokens_down : (c.down k).tokens = c.tokens.move (.down k) := by
  have hpull' := c.pull_down k
  fun_induction tokens c with
  | case1 c d next hpull =>
      rw [hpull] at hpull'
      exact tokens_of_fault hpull'
  | case2 c t next hpull ht =>
      rw [hpull] at hpull'
      exact tokens_of_end hpull' ht
  | case3 c t next hpull ht ih =>
      rw [hpull] at hpull'
      rw [tokens_of_pull hpull' (Bool.eq_false_iff.2 ht), ih (next.pull_down k)]
      rfl

end Cursor

/-- Each newline of a text opens a line. -/
theorem Position.line_after (p : Position) (text : List Char) :
    (p.after text).line = p.line + text.count '\n' := by
  induction text generalizing p with
  | nil => rfl
  | cons c rest ih =>
      rw [after_cons, ih, List.count_cons, advance]
      by_cases hc : c = '\n'
      · simp [hc]
        omega
      · simp [hc]

/-- Whole lines are passed by going as many lines down. -/
theorem Position.after_of_wholeLines {text : List Char} (h : WholeLines text) :
    first.after text = (Motion.down (text.count '\n')).place first := by
  rcases h with rfl | h
  · rfl
  · obtain ⟨front, rfl⟩ := List.getLast?_eq_some_iff.1 h
    rw [after_append, after_cons, after_nil, advance, if_pos rfl, line_after, List.count_append]
    simp [Motion.down, first, Nat.add_assoc]

/-! ## Sources -/

namespace Source

/-- What is dropped from the beginning of a text has no newline. -/
theorem exists_mark (text : List Char) :
    ∃ mark, '\n' ∉ mark ∧ text = mark ++ dropByteOrderMark text := by
  cases text with
  | nil => exact ⟨[], List.not_mem_nil, rfl⟩
  | cons c rest =>
      rw [dropByteOrderMark]
      split
      · rename_i hc
        exact ⟨[c], by rw [hc]; decide, rfl⟩
      · exact ⟨[], List.not_mem_nil, rfl⟩

/-- A byte order mark is dropped only where the first of two texts begins with it. -/
theorem dropByteOrderMark_append {a b : List Char} (hb : b.head? ≠ some byteOrderMark) :
    dropByteOrderMark (a ++ b) = dropByteOrderMark a ++ b := by
  cases a with
  | nil =>
      cases b with
      | nil => rfl
      | cons c b => exact if_neg fun hc => hb (congrArg some hc)
  | cons c a =>
      simp only [List.cons_append, dropByteOrderMark]
      split <;> rfl

theorem chars_ofText (name text : String) :
    (ofText name text).chars = dropByteOrderMark text.toList := String.toList_ofList

/-- A text behind another one is kept as it is, if it does not begin with a byte order mark. -/
theorem chars_ofText_append (joined first second p : String) {s : String}
    (hs : s.toList.head? ≠ some byteOrderMark) :
    (ofText joined (p ++ s)).chars = (ofText first p).chars ++ (ofText second s).chars := by
  have hkept : dropByteOrderMark s.toList = s.toList := dropByteOrderMark_append (a := []) hs
  rw [chars_ofText, chars_ofText, chars_ofText, String.toList_append, dropByteOrderMark_append hs,
    hkept]

theorem count_newline_ofText (name text : String) :
    (ofText name text).chars.count '\n' = text.toList.count '\n' := by
  obtain ⟨mark, hmark, htext⟩ := exists_mark text.toList
  rw [chars_ofText, htext, List.count_append, List.count_eq_zero.2 hmark, Nat.zero_add, ← htext]

theorem wholeLines_ofText (name : String) {text : String}
    (h : text = "" ∨ ∃ front, text = front ++ "\n") : WholeLines (ofText name text).chars := by
  have hlines : WholeLines text.toList := by
    rcases h with rfl | ⟨front, rfl⟩
    · exact .inl rfl
    · exact .inr (by simp)
  obtain ⟨mark, -, htext⟩ := exists_mark text.toList
  rw [htext] at hlines
  rw [chars_ofText]
  exact hlines.of_append

/-- The tokens of a text that is put behind whole lines without fault are those of these lines, and
then its own, as many lines further down. -/
theorem tokens_of_append {a b joined : Source} {e : Position} (h : a.tokens.stop = .ok e)
    (hlines : WholeLines a.chars) (hjoined : joined.chars = a.chars ++ b.chars) :
    joined.tokens = (b.tokens.move (.down (a.chars.count '\n'))).behind a.tokens.tokens := by
  have he : e = (Motion.down (a.chars.count '\n')).place .first :=
    (Cursor.stop_eq_endPosition h).trans (Position.after_of_wholeLines hlines)
  have hcursor : joined.cursor = a.cursor.followedBy b.chars := congrArg (Cursor.mk .first) hjoined
  rw [Source.tokens, hcursor, Cursor.tokens_followedBy h hlines, he]
  exact congrArg (Tokens.behind a.tokens.tokens) (b.cursor.tokens_down _)

end Source

end Bucket
