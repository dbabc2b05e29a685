/-
# Two ways to read all tokens

All tokens of a source can be collected, where a fault leaves nothing, or listed one after the other,
where a fault leaves the lines that were written before it. Both go through the tokens with a lexer, but
move it on in different ways. They meet the same tokens and the same fault (`Lexer.list_eq`,
`Lexer.collect_eq`), and what they give is what all tokens of the source are
(`Source.listing_agrees`). Styles are put around whole tokens, and since no token is listed with a
control character they can be taken out again.
-/
import Bucket.Command.Run
import Bucket.Proofs.Listing.Plain

namespace Bucket

open Command (Report failure? listed)

/-! ## Going through the tokens -/

namespace Lexer

/-- A bound on the moves up to the end of the file. -/
def remaining (l : Lexer) : Nat := l.cursor.rest.length + if l.atEnd then 0 else 1

/-- Moving on to another token takes a character, or comes to the end of the file. -/
theorem remaining_lt_of_pull {l : Lexer} {t : Token} {c : Cursor} (hgoing : ¬ l.atEnd)
    (hpull : l.cursor.pull = (.ok t, c)) : remaining ⟨c, t⟩ < l.remaining := by
  have hlength := l.cursor.length_pull
  rw [hpull] at hlength
  dsimp only at hlength
  rw [remaining, remaining, if_neg hgoing]
  rcases hlength with hlt | ⟨hle, p, hp⟩
  · show c.rest.length + _ < _
    split <;> omega
  · have hend : (⟨c, t⟩ : Lexer).atEnd = true := by
      rw [atEnd, Except.ok.inj hp]
      rfl
    rw [if_pos hend]
    show c.rest.length + 0 < _
    omega

/-- What a move to the next token leads to, if there is no fault. -/
theorem exists_pull_of_next {l l' : Lexer} (h : l.next = (.ok (), l')) :
    ∃ t c, l.cursor.pull = (.ok t, c) ∧ l' = ⟨c, t⟩ := by
  unfold next at h
  split at h
  · rename_i t c hpull
    exact ⟨t, c, hpull, (Prod.mk.inj h).2.symm⟩
  · cases (Prod.mk.inj h).1

theorem exists_pull_of_advance {l l' : Lexer} {t : Token} (h : l.advance = (.ok t, l')) :
    t = l.current ∧ ∃ u c, l.cursor.pull = (.ok u, c) ∧ l' = ⟨c, u⟩ := by
  unfold advance at h
  split at h
  · rename_i u c hpull
    obtain ⟨ht, hl⟩ := Prod.mk.inj h
    exact ⟨(Except.ok.inj ht).symm, u, c, hpull, hl.symm⟩
  · cases (Prod.mk.inj h).1

/-- Lists the token that is shown and those behind it, each as soon as it is shown. What was written
before a fault stays. -/
def list (styled : Bool) (l : Lexer) (out : String) : Report :=
  if _h : l.atEnd then ⟨out, none⟩
  else
    let out := out ++ (listed styled l.current.kind ++ "\n")
    match _hnext : l.next with
    | (.ok _, l') => l'.list styled out
    | (.error d, _) => ⟨out, some d⟩
termination_by l.remaining
decreasing_by
  obtain ⟨t, c, hpull, rfl⟩ := exists_pull_of_next _hnext
  exact remaining_lt_of_pull _h hpull

/-- Collects the token that is shown and those behind it. A fault leaves nothing. -/
def collect (l : Lexer) (before : List Token) : Except Diagnostic (List Token) :=
  if _h : l.atEnd then .ok before
  else
    match _hadvance : l.advance with
    | (.ok t, l') => l'.collect (before ++ [t])
    | (.error d, _) => .error d
termination_by l.remaining
decreasing_by
  obtain ⟨-, u, c, hpull, rfl⟩ := exists_pull_of_advance _hadvance
  exact remaining_lt_of_pull _h hpull

/-- The tokens that a lexer comes to show when it is moved on, up to the end of the file or the first
fault, and that fault if there is one. -/
inductive Yields : Lexer → List Token → Option Diagnostic → Prop where
  | ended {l : Lexer} : l.atEnd = true → Yields l [] none
  | token {l l' : Lexer} {ts : List Token} {stop : Option Diagnostic} :
      l.atEnd = false → l.next = (.ok (), l') → Yields l' ts stop → Yields l (l.current :: ts) stop
  | fault {l l' : Lexer} {d : Diagnostic} :
      l.atEnd = false → l.next = (.error d, l') → Yields l [l.current] (some d)

/-! ## What is shown and what is left -/

/-- The token that is shown and all that are left to read. -/
def tokens (l : Lexer) : Tokens :=
  if l.atEnd then ⟨[], .ok l.current.span.start⟩ else l.cursor.tokens.cons l.current

/-- A lexer that reads on shows the first of the tokens that are left. -/
theorem tokens_of_pull {c next : Cursor} {t : Token} (h : c.pull = (.ok t, next)) :
    tokens ⟨next, t⟩ = c.tokens := by
  by_cases ht : t.isEndOfFile = true
  · rw [Cursor.tokens_of_end h ht]
    exact if_pos ht
  · rw [Cursor.tokens_of_pull h (by simpa using ht)]
    exact if_neg ht

theorem tokens_of_atEnd {l : Lexer} (h : l.atEnd = true) :
    l.tokens = ⟨[], .ok l.current.span.start⟩ := if_pos h

/-- The token that is shown comes before those that are shown later. -/
theorem tokens_of_next {l l' : Lexer} (h : ¬ l.atEnd) (hnext : l.next = (.ok (), l')) :
    l.tokens = l'.tokens.cons l.current := by
  obtain ⟨t, c, hpull, rfl⟩ := exists_pull_of_next hnext
  rw [tokens, if_neg h, tokens_of_pull hpull]

theorem tokens_of_fault {l l' : Lexer} {d : Diagnostic} (h : ¬ l.atEnd)
    (hnext : l.next = (.error d, l')) : l.tokens = ⟨[l.current], .error d⟩ := by
  unfold next at hnext
  split at hnext
  · cases (Prod.mk.inj hnext).1
  · rename_i d' c hpull
    obtain rfl := Except.error.inj (Prod.mk.inj hnext).1
    rw [tokens, if_neg h, Cursor.tokens_of_fault hpull]
    rfl

/-- Advancing moves on as showing the next token does. -/
theorem next_of_advance {l l' : Lexer} {r : Except Diagnostic Token} (h : l.advance = (r, l')) :
    l.next = (r.map fun _ => (), l') := by
  unfold advance at h
  unfold next
  split at h
  all_goals
    obtain ⟨rfl, rfl⟩ := Prod.mk.inj h
    rfl

/-- The lines of some tokens, one after the other. -/
def listing (styled : Bool) (ts : List Token) : String :=
  String.join (ts.map fun t => listed styled t.kind ++ "\n")

/-- Listing the tokens writes a line for each of them and tells the fault behind them. -/
theorem list_eq (styled : Bool) (l : Lexer) (out : String) :
    l.list styled out = ⟨out ++ listing styled l.tokens.tokens, failure? l.tokens.stop⟩ := by
  fun_induction list styled l out with
  | case1 l out h =>
      rw [tokens_of_atEnd h]
      simp [listing, failure?, String.join]
  | case2 l out h out' u l' hnext ih =>
      rw [ih, tokens_of_next h hnext]
      simp [out', listing, Tokens.cons, String.append_assoc]
  | case3 l out h out' d l' hnext =>
      rw [tokens_of_fault h hnext]
      simp [out', listing, failure?, String.join]

/-- Collecting the tokens gives all of them, unless there is a fault behind them. -/
theorem collect_eq (l : Lexer) (before : List Token) :
    l.collect before = l.tokens.toExcept.map (before ++ ·) := by
  fun_induction collect l before with
  | case1 l before h =>
      rw [tokens_of_atEnd h]
      exact congrArg Except.ok (List.append_nil before).symm
  | case2 l before h t l' hadvance ih =>
      obtain ⟨rfl, -⟩ := exists_pull_of_advance hadvance
      rw [ih, tokens_of_next h (next_of_advance hadvance), Tokens.cons]
      unfold Tokens.toExcept
      cases l'.tokens.stop with
      | ok e => exact congrArg Except.ok (by simp)
      | error d => rfl
  | case3 l before h d l' hadvance =>
      rw [tokens_of_fault h (next_of_advance hadvance)]
      rfl

/-- A lexer comes to show the tokens that it shows or has left. -/
theorem yields_tokens (l : Lexer) : l.Yields l.tokens.tokens (failure? l.tokens.stop) := by
  -- Listing goes through the lexers that show them.
  fun_induction list false l "" with
  | case1 l out h =>
      rw [tokens_of_atEnd h]
      exact .ended h
  | case2 l out h out' u l' hnext ih =>
      rw [tokens_of_next h hnext]
      exact .token (by simpa using h) hnext ih
  | case3 l out h out' d l' hnext =>
      rw [tokens_of_fault h hnext]
      exact .fault (by simpa using h) hnext

/-- It comes to show no others. -/
theorem Yields.eq_tokens {l : Lexer} {ts : List Token} {stop : Option Diagnostic}
    (h : l.Yields ts stop) : ts = l.tokens.tokens ∧ stop = failure? l.tokens.stop := by
  induction h with
  | ended h =>
      rw [tokens_of_atEnd h]
      exact ⟨rfl, rfl⟩
  | token h hnext _ ih =>
      rw [tokens_of_next (by simp [h]) hnext]
      exact ⟨congrArg _ ih.1, ih.2⟩
  | fault h hnext =>
      rw [tokens_of_fault (by simp [h]) hnext]
      exact ⟨rfl, rfl⟩

end Lexer

/-! ## Sources -/

namespace Source

/-- Lists the tokens of a source with a new lexer. -/
def list (styled : Bool) (s : Source) : Report :=
  match Lexer.ofSource s with
  | .ok l => l.list styled ""
  | .error d => ⟨"", some d⟩

/-- Collects the tokens of a source with a new lexer. -/
def collect (s : Source) : Except Diagnostic (List Token) :=
  match Lexer.ofSource s with
  | .ok l => l.collect []
  | .error d => .error d

/-- The tokens that a new lexer for a source comes to show up to the end of the file or the first fault,
and that fault if there is one. -/
inductive Yields (s : Source) : List Token → Option Diagnostic → Prop where
  | made {l : Lexer} {ts : List Token} {stop : Option Diagnostic} :
      Lexer.ofSource s = .ok l → l.Yields ts stop → Yields s ts stop
  | fault {d : Diagnostic} : Lexer.ofSource s = .error d → Yields s [] (some d)

variable {s : Source}

theorem tokens_of_ofSource {l : Lexer} (h : Lexer.ofSource s = .ok l) : l.tokens = s.tokens := by
  unfold Lexer.ofSource at h
  split at h
  · rename_i t c hpull
    obtain rfl := Except.ok.inj h
    exact Lexer.tokens_of_pull hpull
  · cases h

theorem tokens_of_ofSource_error {d : Diagnostic} (h : Lexer.ofSource s = .error d) :
    s.tokens = ⟨[], .error d⟩ := by
  unfold Lexer.ofSource at h
  split at h
  · cases h
  · rename_i d' c hpull
    obtain rfl := Except.error.inj h
    exact Cursor.tokens_of_fault hpull

/-- Listing a source goes through its tokens one by one. -/
theorem lex_eq_list (styled : Bool) (s : Source) : Command.lex styled s = s.list styled := by
  rw [list]
  cases h : Lexer.ofSource s with
  | ok l =>
      show _ = l.list styled ""
      rw [Lexer.list_eq, tokens_of_ofSource h, String.empty_append]
      rfl
  | error d =>
      rw [Command.lex, tokens_of_ofSource_error h]
      rfl

/-- The list of all tokens is collected one by one. -/
theorem toExcept_eq_collect (s : Source) : s.tokens.toExcept = s.collect := by
  rw [collect]
  cases h : Lexer.ofSource s with
  | ok l =>
      show _ = l.collect []
      rw [Lexer.collect_eq, tokens_of_ofSource h]
      cases s.tokens.toExcept <;> rfl
  | error d =>
      rw [tokens_of_ofSource_error h]
      rfl

theorem yields_iff {ts : List Token} {stop : Option Diagnostic} :
    s.Yields ts stop ↔ ts = s.tokens.tokens ∧ stop = failure? s.tokens.stop := by
  constructor
  · intro h
    cases h with
    | made hmade h =>
        rw [← tokens_of_ofSource hmade]
        exact h.eq_tokens
    | fault h =>
        rw [tokens_of_ofSource_error h]
        exact ⟨rfl, rfl⟩
  · rintro ⟨rfl, rfl⟩
    cases h : Lexer.ofSource s with
    | ok l =>
        rw [← tokens_of_ofSource h]
        exact .made h l.yields_tokens
    | error d =>
        rw [tokens_of_ofSource_error h]
        exact .fault h

end Source

/-! ## Styles -/

namespace Command

/-- The line for a token with styles, where keywords and symbols are bold and truth values are red. A
style is turned on in front of the token and off behind it. -/
def styledLine (k : Token.Kind) : List Char :=
  match k with
  | .keyword _ => ['\x1b', '[', '1', 'm'] ++ k.dump.toList ++ ['\x1b', '[', '0', 'm']
  | .symbol _ => ['\x1b', '[', '1', 'm'] ++ k.dump.toList ++ ['\x1b', '[', '0', 'm']
  | .literal (.boolean _) =>
      ['\x1b', '[', '3', '1', 'm'] ++ k.dump.toList ++ ['\x1b', '[', '0', 'm']
  | _ => k.dump.toList

/-- A text without the sequences that turn styles on and off. -/
def withoutStyles : List Char → List Char
  | [] => []
  | '\x1b' :: '[' :: '1' :: 'm' :: rest => withoutStyles rest
  | '\x1b' :: '[' :: '3' :: '1' :: 'm' :: rest => withoutStyles rest
  | '\x1b' :: '[' :: '0' :: 'm' :: rest => withoutStyles rest
  | c :: rest => c :: withoutStyles rest

/-- Tokens are listed in their styles. -/
theorem toList_listed_true (k : Token.Kind) : (listed true k).toList = styledLine k := by
  have hwith : ∀ code text : String, (styledWith code text).toList =
      ['\x1b', '['] ++ code.toList ++ ['m'] ++ text.toList ++ ['\x1b', '[', '0', 'm'] := by
    intro code text
    simp [styledWith]
  cases k with
  | keyword w => exact hwith "1" _
  | symbol y => exact hwith "1" _
  | literal v =>
      cases v with
      | boolean b => exact hwith "31" _
      | _ => rfl
  | _ => rfl

/-- No sequence begins with a character that is none of a style. -/
theorem withoutStyles_cons {c : Char} (hc : c ≠ '\x1b') (rest : List Char) :
    withoutStyles (c :: rest) = c :: withoutStyles rest := by
  conv => lhs; unfold withoutStyles
  split <;> simp_all

/-- Plain text has no sequences. -/
theorem withoutStyles_append {text : List Char} (h : Text.Plain text) (rest : List Char) :
    withoutStyles (text ++ rest) = text ++ withoutStyles rest := by
  induction text with
  | nil => rfl
  | cons c text ih =>
      obtain ⟨hc, htext⟩ := List.forall_mem_cons.1 h
      have hne : c ≠ '\x1b' := by
        rintro rfl
        exact absurd hc (by decide)
      rw [List.cons_append, withoutStyles_cons hne, ih htext, List.cons_append]

/-- Each style is taken out again. -/
theorem withoutStyles_styledLine {k : Token.Kind} (h : Text.Plain k.dump.toList)
    (rest : List Char) :
    withoutStyles (styledLine k ++ rest) = k.dump.toList ++ withoutStyles rest := by
  have hoff : withoutStyles (k.dump.toList ++ '\x1b' :: '[' :: '0' :: 'm' :: rest) =
      k.dump.toList ++ withoutStyles rest := by
    rw [withoutStyles_append h, withoutStyles]
  unfold styledLine
  split
  · simpa [withoutStyles] using hoff
  · simpa [withoutStyles] using hoff
  · simpa [withoutStyles] using hoff
  · exact withoutStyles_append h rest

/-- The characters of some lines. -/
theorem toList_listing (styled : Bool) (ts : List Token) :
    (Lexer.listing styled ts).toList =
      (ts.map fun t => (listed styled t.kind).toList).flatMap (· ++ ['\n']) := by
  rw [Lexer.listing, String.toList_join, List.flatMap_map, List.flatMap_map]
  simp

/-- Taking the styles out of some lines gives the lines without styles. -/
theorem withoutStyles_listing {ts : List Token} (h : ∀ t ∈ ts, t.kind.Occurs) :
    withoutStyles (Lexer.listing true ts).toList = (Lexer.listing false ts).toList := by
  rw [toList_listing, toList_listing]
  induction ts with
  | nil => rfl
  | cons t ts ih =>
      obtain ⟨ht, hts⟩ := List.forall_mem_cons.1 h
      rw [List.map_cons, List.flatMap_cons, List.append_assoc, toList_listed_true,
        withoutStyles_styledLine (Token.Kind.plain_dump ht), List.singleton_append,
        withoutStyles_cons (by decide), ih hts]
      simp [listed]

/-- Neither form of a token is broken. -/
theorem not_mem_newline_listed {k : Token.Kind} (hk : k.Occurs) (styled : Bool) :
    '\n' ∉ (listed styled k).toList := by
  have hplain := (Token.Kind.plain_dump hk).not_mem_newline
  cases styled with
  | false => exact hplain
  | true =>
      rw [toList_listed_true]
      unfold styledLine
      split <;> simp [hplain]

/-- Lines of tokens can be told apart again. -/
theorem splitOn_listing {ts : List Token} (h : ∀ t ∈ ts, t.kind.Occurs) (styled : Bool) :
    (Lexer.listing styled ts).toList.splitOn '\n' =
      ts.map (fun t => (listed styled t.kind).toList) ++ [[]] := by
  rw [toList_listing]
  apply Text.splitOn_lines
  intro line hline
  obtain ⟨t, ht, rfl⟩ := List.mem_map.1 hline
  exact not_mem_newline_listed (h t ht) styled

end Command

/-! ## The listing of a source -/

/-- The two ways of reading all tokens of a source agree. There are tokens that a lexer for the source
comes to show in front of the end of the file or the first fault, and no others. Listing them one by one
writes exactly a line for each, in order, and ends with the fault if there is one, collecting them one by
one gives all of them or the fault, and this is what the list command and the list of all tokens are.
With styles the lines are those tokens in their styles, the fault is the same, and without the
sequences for styles the output is the one without styles. No token is listed with a control character. -/
theorem Source.listing_agrees (s : Source) : ∃ (ts : List Token) (stop : Option Diagnostic),
    (∀ us stop', s.Yields us stop' ↔ us = ts ∧ stop' = stop) ∧
    (∀ styled, Command.lex styled s = s.list styled) ∧
    s.tokens.toExcept = s.collect ∧
    (s.list false).failure = stop ∧
    (s.list false).out.toList.splitOn '\n' = ts.map (fun t => t.kind.dump.toList) ++ [[]] ∧
    s.collect = (match stop with | none => .ok ts | some d => .error d) ∧
    (s.list true).failure = stop ∧
    (s.list true).out.toList.splitOn '\n' =
      ts.map (fun t => Command.styledLine t.kind) ++ [[]] ∧
    Command.withoutStyles (s.list true).out.toList = (s.list false).out.toList ∧
    ∀ t ∈ ts, ∀ c ∈ t.kind.dump.toList, Text.isControl c = false := by
  have hoccurs : ∀ t ∈ s.tokens.tokens, t.kind.Occurs := s.cursor.occurs_of_mem_tokens
  have hplain := Command.splitOn_listing hoccurs false
  have hstyled := Command.splitOn_listing hoccurs true
  simp only [Command.toList_listed_true] at hstyled
  refine ⟨s.tokens.tokens, failure? s.tokens.stop, fun _ _ => yields_iff,
    fun styled => lex_eq_list styled s, toExcept_eq_collect s, ?_, ?_, ?_, ?_, ?_, ?_,
    fun t ht => Token.Kind.plain_dump (hoccurs t ht)⟩
  · rw [← lex_eq_list, Command.lex]
  · rw [← lex_eq_list]
    exact hplain
  · rw [← toExcept_eq_collect, Tokens.toExcept]
    cases s.tokens.stop <;> rfl
  · rw [← lex_eq_list, Command.lex]
  · rw [← lex_eq_list]
    exact hstyled
  · rw [← lex_eq_list, ← lex_eq_list]
    exact Command.withoutStyles_listing hoccurs

/-- A keyword, a truth value, a sign and a name are listed in front of a fault, with and without styles. -/
theorem Source.listing_agrees_styles :
    let s := Source.ofText "in" "ret true + end_ $"
    s.list true = ⟨"\x1b[1m<ret>\x1b[0m\n\x1b[31m<true>\x1b[0m\n\x1b[1m<+>\x1b[0m\n<end_>\n",
      some (.lexical (.unexpectedCharacter '$') ⟨1, 17⟩)⟩ ∧
    s.list false = ⟨"<ret>\n<true>\n<+>\n<end_>\n",
      some (.lexical (.unexpectedCharacter '$') ⟨1, 17⟩)⟩ ∧
    s.collect = .error (.lexical (.unexpectedCharacter '$') ⟨1, 17⟩) ∧
    Command.withoutStyles (s.list true).out.toList = (s.list false).out.toList := by
  intro s
  obtain ⟨_, _, -, hlist, hcollect, -, -, -, -, -, hwithout, -⟩ := Source.listing_agrees s
  refine ⟨?_, ?_, ?_, hwithout⟩
  · rw [← hlist]
    decide +kernel
  · rw [← hlist]
    decide +kernel
  · rw [← hcollect]
    decide +kernel

end Bucket
