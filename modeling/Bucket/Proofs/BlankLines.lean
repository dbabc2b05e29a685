/-
# Blank lines

A newline ends something, and behind it nothing is open that a second newline could end. So a run of
newlines is read as a single one is (`State.runTokens_condense`). Two programs that differ in how often
their newlines are repeated have trees that are the same apart from places, or are refused with the same
words at tokens that correspond, and lines without words may be put behind any line of a program
(`Source.parse_blankLines`).
-/
import Bucket.Proofs.Concatenation
import Bucket.Proofs.Layout
import Bucket.Proofs.Lexing.Separator
import Mathlib.Data.List.Destutter
import Mathlib.Logic.Relation

namespace Bucket

open Bucket.Lexer
open Bucket.Parser (State)

/-! ## Runs of newlines -/

namespace Token

/-- Whether a token is more than one more newline directly behind a newline. -/
def Kind.Counts (before k : Kind) : Prop := ¬ (before = .symbol .newline ∧ k = .symbol .newline)

instance : DecidableRel Kind.Counts := fun _ _ => inferInstanceAs (Decidable (¬ _))

/-- Whether the second list of tokens has a newline of the first one once more, directly behind it. -/
inductive RepeatsNewline : List Kind → List Kind → Prop where
  | mk (front back : List Kind) :
      RepeatsNewline (front ++ .symbol .newline :: back)
        (front ++ .symbol .newline :: .symbol .newline :: back)

/-- Whether two lists of tokens are the same but for how often their newlines are repeated. -/
def SameLines : List Kind → List Kind → Prop := Relation.EqvGen RepeatsNewline

/-- Tokens without the newlines that stand directly behind a newline. -/
def condense (ts : List Token) : List Token := ts.destutter fun t u => t.kind.Counts u.kind

theorem map_kind_condense (ts : List Token) :
    (condense ts).map (·.kind) = (ts.map (·.kind)).destutter Kind.Counts :=
  List.map_destutter fun _ _ _ _ => Iff.rfl

/-- A newline that is repeated is dropped. -/
theorem RepeatsNewline.destutter_eq {ks ks' : List Kind} (h : RepeatsNewline ks ks') :
    ks.destutter Kind.Counts = ks'.destutter Kind.Counts := by
  have hnewline : ¬ Kind.Counts (.symbol .newline) (.symbol .newline) := fun h => h ⟨rfl, rfl⟩
  -- Behind any token, since the newline itself may be one that is dropped.
  have hbehind : ∀ (k : Kind) (front back : List Kind),
      (front ++ .symbol .newline :: back).destutter' Kind.Counts k =
        (front ++ .symbol .newline :: .symbol .newline :: back).destutter' Kind.Counts k := by
    intro k front back
    induction front generalizing k with
    | nil =>
        rw [List.nil_append, List.nil_append]
        by_cases hk : k.Counts (.symbol .newline)
        · rw [List.destutter'_cons_pos _ hk, List.destutter'_cons_pos _ hk,
            List.destutter'_cons_neg _ hnewline]
        · rw [List.destutter'_cons_neg _ hk, List.destutter'_cons_neg _ hk,
            List.destutter'_cons_neg _ hk]
    | cons k' front ih =>
        rw [List.cons_append, List.cons_append, List.destutter'_cons, List.destutter'_cons, ih, ih]
  obtain ⟨front, back⟩ := h
  cases front with
  | nil =>
      rw [List.nil_append, List.nil_append, List.destutter_cons', List.destutter_cons',
        List.destutter'_cons_neg _ hnewline]
  | cons k front => exact hbehind k front back

/-- How often newlines are repeated does not show when the repeated ones are dropped. -/
theorem SameLines.destutter_eq {ks ks' : List Kind} (h : SameLines ks ks') :
    ks.destutter Kind.Counts = ks'.destutter Kind.Counts := by
  induction h with
  | rel _ _ h => exact h.destutter_eq
  | refl _ => rfl
  | symm _ _ _ ih => exact ih.symm
  | trans _ _ _ _ _ ih ih' => exact ih.trans ih'

/-- Newlines behind a newline repeat it. -/
theorem sameLines_replicate (front back : List Kind) (n : Nat) :
    SameLines (front ++ .symbol .newline :: back)
      (front ++ .symbol .newline :: (List.replicate n (.symbol .newline) ++ back)) := by
  induction n with
  | zero => exact .refl _
  | succ n ih => exact ih.trans _ _ _ (.rel _ _ (.mk front _))

end Token

open Token (condense SameLines)

/-! ## A newline behind a newline -/

namespace Parser

variable {s s' : State} {span : Span}

/-- Behind a newline there is a declaration or a statement to read. -/
def State.AtLine : State → Prop
  | .declarations _ | .statements _ => True
  | _ => False

theorem Context.atLine_of_deliver {c : Context} {e : Expression}
    (h : c.deliver e ⟨.symbol .newline, span⟩ = some s') : s'.AtLine := by
  cases c with
  | slot slot => cases slot <;> cases h <;> trivial
  | group opener waiting outer => cases h
  | arguments call waiting outer =>
      obtain ⟨brackets, receiver, method, arguments⟩ := call
      cases brackets <;> cases h

namespace State

/-- A newline leads to where a line begins, wherever it may stand. -/
theorem atLine_of_step (h : s.step ⟨.symbol .newline, span⟩ = some s') : s'.AtLine := by
  cases s with
  | operand waiting context => cases (stepOperand_newline waiting context span).symm.trans h
  | pending p waiting context => exact Context.atLine_of_deliver h
  | _ => cases h <;> trivial

/-- Where a line begins a newline changes nothing. -/
theorem AtLine.step (h : s.AtLine) (span : Span) : s.step ⟨.symbol .newline, span⟩ = some s := by
  cases s <;> first | rfl | cases h

/-- A newline directly behind a newline changes nothing. -/
theorem runTokens_of_not_counts {t u : Token} (h : ¬ t.kind.Counts u.kind) (fileEnd : Position)
    (rest : List Token) : s.runTokens fileEnd (t :: u :: rest) = s.runTokens fileEnd (t :: rest) := by
  obtain ⟨kind, span⟩ := t
  obtain ⟨kind', span'⟩ := u
  obtain ⟨rfl, rfl⟩ : kind = .symbol .newline ∧ kind' = .symbol .newline := not_not.1 h
  rw [runTokens, runTokens]
  cases hstep : s.step ⟨.symbol .newline, span⟩ with
  | none => rfl
  | some s' =>
      dsimp only
      rw [runTokens, (atLine_of_step hstep).step span']

/-- A run of newlines is read as its first one. -/
theorem runTokens_condense (s : State) (fileEnd : Position) (ts : List Token) :
    s.runTokens fileEnd (condense ts) = s.runTokens fileEnd ts := by
  -- By induction on what stands behind a first token, which may be a newline.
  have hbehind : ∀ (s : State) (t : Token) (ts : List Token),
      s.runTokens fileEnd (ts.destutter' (fun t u => t.kind.Counts u.kind) t) =
        s.runTokens fileEnd (t :: ts) := by
    intro s t ts
    induction ts generalizing s t with
    | nil => rfl
    | cons u ts ih =>
        by_cases hcounts : t.kind.Counts u.kind
        · rw [List.destutter'_cons, if_pos hcounts, runTokens, runTokens]
          cases s.step t with
          | none => rfl
          | some s' => exact ih s' u
        · rw [List.destutter'_cons, if_neg hcounts, ih, runTokens_of_not_counts hcounts]
  cases ts with
  | nil => rfl
  | cons t ts => exact hbehind s t ts

/-- Programs that are the same but for how often their newlines are repeated end alike, at tokens that
correspond when the repeated ones are dropped. -/
theorem runTokens_sameLines {ts us : List Token}
    (h : SameLines (ts.map (·.kind)) (us.map (·.kind))) (e e' : Position) :
    EndAlike (condense ts ++ [.endOfFile e]) (condense us ++ [.endOfFile e'])
      (State.initial.runTokens e ts) (State.initial.runTokens e' us) := by
  have hkinds : (condense ts).map (·.kind) = (condense us).map (·.kind) := by
    rw [Token.map_kind_condense, h.destutter_eq, Token.map_kind_condense]
  have hend := runTokens_sameKinds (s := .initial) rfl hkinds e e'
  rwa [runTokens_condense, runTokens_condense] at hend

end State

/-- What tokens are read as does not depend on how often newlines are repeated. -/
theorem readModule?_sameLines {ks ks' : List Token.Kind} (h : SameLines ks ks') :
    readModule? ks = readModule? ks' := by
  have hkinds : ∀ ks : List Token.Kind,
      (ks.map (⟨·, .first⟩ : Token.Kind → Token)).map (·.kind) = ks := by
    intro ks
    rw [List.map_map]
    exact List.map_id ks
  have hread : ∀ ks : List Token.Kind,
      (State.initial.runTokens .first (ks.map (⟨·, .first⟩))).toOption.map Class.bare =
        readModule? ks := by
    intro ks
    have hbare := State.initial.runTokens_bare .first (ks.map (⟨·, .first⟩))
    rw [hkinds] at hbare
    exact hbare
  rw [← hkinds ks, ← hkinds ks'] at h
  have hend := State.runTokens_sameLines h .first .first
  rw [← hread ks, ← hread ks']
  generalize State.initial.runTokens .first (ks.map (⟨·, .first⟩)) = first,
    State.initial.runTokens .first (ks'.map (⟨·, .first⟩)) = second at hend ⊢
  cases hend with
  | parsed hbare => exact congrArg some hbare
  | refused _ _ => rfl

end Parser

/-! ## Lines of a text -/

/-- A newline is a token in front of anything. -/
theorem outline_newline (rest : List Char) :
    outline ('\n' :: rest) = (outline rest).cons (.symbol .newline) := by
  have hmore : (Lexeme.of '\n' ([] ++ rest)).more = ([] : List Char).length := rfl
  exact outline_of_lexeme (Lexeme.faultless_of_token rfl) hmore

/-- Puts tokens in front of others. -/
def Outline.behind (front : List Token.Kind) (o : Outline) : Outline := ⟨front ++ o.kinds, o.fault⟩

/-- Blanks and newlines are read as the newlines. -/
theorem outline_blankLines {gap : List Char} (hgap : ∀ c ∈ gap, c = '\n' ∨ isBlank c = true)
    (rest : List Char) :
    ∃ n, outline (gap ++ rest) =
      (outline rest).behind (List.replicate n (.symbol .newline)) := by
  induction gap with
  | nil => exact ⟨0, rfl⟩
  | cons c gap ih =>
      obtain ⟨hc, hgap⟩ := List.forall_mem_cons.1 hgap
      obtain ⟨n, hn⟩ := ih hgap
      rcases hc with rfl | hc
      · refine ⟨n + 1, ?_⟩
        rw [List.cons_append, outline_newline, hn]
        rfl
      · refine ⟨n, ?_⟩
        rw [List.cons_append, outline_blank hc, hn]

/-- Where reading comes to a newline, the tokens in front of what stands behind it do not depend on
that. -/
theorem Cursor.Reaches.outline_line {c c' : Cursor} {behind : List Char} (h : c.Reaches c')
    (hrest : c'.rest = '\n' :: behind) :
    ∃ front ks, c.rest = front ++ '\n' :: behind ∧
      ∀ other, outline (front ++ '\n' :: other) = (outline ('\n' :: other)).behind ks := by
  have hend : ∀ l, c'.lexeme? = some l → l.Faultless := by
    intro l hl
    rw [lexeme?, hrest] at hl
    obtain rfl := Option.some.inj hl
    exact Lexeme.faultless_of_token rfl
  induction h with
  | here c => exact ⟨[], [], hrest, fun other => rfl⟩
  | @blank p b rest c' hb _ ih =>
      obtain ⟨front, ks, rfl, hfront⟩ := ih hrest hend
      refine ⟨b :: front, ks, rfl, fun other => ?_⟩
      rw [List.cons_append, outline_blank hb, hfront]
  | @pass c c' l hl hfaultless hreaches ih =>
      obtain ⟨p, rest⟩ := c
      obtain ⟨head, rest, rfl, rfl⟩ := exists_of_lexeme? hl
      obtain ⟨used, after, rfl, hover⟩ := Lexeme.ends_of (hreaches.writable hend) hfaultless
      have hpass : ((Cursor.mk p (head :: (used ++ after))).pass (.of head (used ++ after))).rest =
          after := by
        simp [Cursor.pass, skip, hover.more_eq]
      obtain ⟨front, ks, hsplit, hfront⟩ := ih hrest hend
      obtain rfl : after = front ++ '\n' :: behind := hpass.symm.trans hsplit
      -- The lexeme is over at the newline at the latest, so it is the same in front of any other text.
      have hagain : ∀ other, Lexeme.of head (used ++ (front ++ '\n' :: other)) =
          Lexeme.of head (used ++ (front ++ '\n' :: behind)) := by
        intro other
        refine hover.read_eq _ (.inr ?_)
        cases front <;> rfl
      have hmore : ∀ other, (Lexeme.of head (used ++ (front ++ '\n' :: other))).more = used.length :=
        fun other => hagain other ▸ hover.more_eq
      have hfree : ∀ other, (Lexeme.of head (used ++ (front ++ '\n' :: other))).Faultless :=
        fun other => hagain other ▸ hfaultless
      cases hmeaning : (Lexeme.of head (used ++ (front ++ '\n' :: behind))).meaning with
      | token k =>
          refine ⟨head :: (used ++ front), k :: ks, by simp, fun other => ?_⟩
          rw [List.cons_append, List.append_assoc, outline_of_lexeme (hfree other) (hmore other), hagain,
            hmeaning]
          dsimp only
          rw [hfront]
          rfl
      | skipped =>
          refine ⟨head :: (used ++ front), ks, by simp, fun other => ?_⟩
          rw [List.cons_append, List.append_assoc, outline_of_lexeme (hfree other) (hmore other), hagain,
            hmeaning]
          exact hfront other
      | fault fault offset => exact absurd hmeaning (hfaultless fault offset)

/-- What a source holds, apart from places, is what its tokens are read as, if there is no fault among
them. -/
theorem Source.parse_of_outline (s : Source) :
    s.parse.toOption.map Class.bare =
      match s.tokens.outline.fault with
      | none => Parser.readModule? s.tokens.outline.kinds
      | some _ => none := by
  cases hstop : s.tokens.stop with
  | ok e =>
      rw [parse_of_stop hstop, Tokens.outline, hstop]
      rfl
  | error d =>
      rw [parse_of_fault hstop, Tokens.outline, hstop]
      rfl

/-- Blanks and newlines behind a newline that reading a text comes to are read as that newline once more
and again. -/
theorem Source.exists_outline_of_blankLines {name p gap s : String} {c : Cursor}
    (hreaches : (ofText name (p ++ "\n" ++ s)).cursor.Reaches c) (hrest : c.rest = '\n' :: s.toList)
    (hgap : ∀ b ∈ gap.toList, b = '\n' ∨ isBlank b = true) :
    ∃ ks n, (ofText name (p ++ "\n" ++ s)).tokens.outline =
        (outline s.toList).behind (ks ++ [.symbol .newline]) ∧
      (ofText name (p ++ "\n" ++ gap ++ s)).tokens.outline =
        (outline s.toList).behind (ks ++ .symbol .newline :: List.replicate n (.symbol .newline)) := by
  have hchars : ∀ behind : String, (ofText name (p ++ "\n" ++ behind)).cursor.rest =
      dropByteOrderMark p.toList ++ '\n' :: behind.toList := by
    intro behind
    have hmark : ("\n" ++ behind).toList.head? ≠ some byteOrderMark := by
      rw [String.toList_append]
      exact (by decide : some '\n' ≠ some byteOrderMark)
    rw [cursor, Cursor.ofChars, chars_ofText, String.append_assoc, String.toList_append,
      dropByteOrderMark_append hmark, String.toList_append]
    rfl
  obtain ⟨front, ks, hsplit, hfront⟩ := hreaches.outline_line hrest
  obtain rfl : front = dropByteOrderMark p.toList :=
    List.append_cancel_right (hsplit.symm.trans (hchars s))
  obtain ⟨n, hn⟩ := outline_blankLines hgap s.toList
  refine ⟨ks, n, ?_, ?_⟩
  · rw [Source.tokens, Bucket.outline_eq, hchars, hfront, outline_newline]
    simp [Outline.behind, Outline.cons]
  · rw [(String.append_assoc : p ++ "\n" ++ gap ++ s = _), Source.tokens, Bucket.outline_eq, hchars,
      hfront, outline_newline, String.toList_append, hn]
    simp [Outline.behind, Outline.cons]

/-! ## Programs -/

/-- How often newlines are repeated steers nothing. Two lists of tokens that are the same but for that are
both read as programs, to trees that are the same apart from places, or are both refused, with the same
words about tokens that stand at the same index when newlines directly behind a newline are dropped. So
blanks and newlines may be put behind any newline that reading a text comes to: the text holds the same
tree, apart from places, or none as before. -/
theorem Source.parse_blankLines :
    (∀ (ts us : List Token) (e e' : Position), SameLines (ts.map (·.kind)) (us.map (·.kind)) →
      (∃ c d, State.initial.runTokens e ts = .ok c ∧ State.initial.runTokens e' us = .ok d ∧
        c.bare = d.bare) ∨
      ∃ (expected found : String) (i : Nat) (t u : Token),
        (condense ts ++ [.endOfFile e])[i]? = some t ∧
        (condense us ++ [.endOfFile e'])[i]? = some u ∧
        State.initial.runTokens e ts = .error (.syntactic expected found t.span.start) ∧
        State.initial.runTokens e' us = .error (.syntactic expected found u.span.start)) ∧
    ∀ (name p gap s : String) (c : Cursor),
      (ofText name (p ++ "\n" ++ s)).cursor.Reaches c → c.rest = '\n' :: s.toList →
      (∀ b ∈ gap.toList, b = '\n' ∨ isBlank b = true) →
      (ofText name (p ++ "\n" ++ gap ++ s)).parse.toOption.map Class.bare =
        (ofText name (p ++ "\n" ++ s)).parse.toOption.map Class.bare := by
  constructor
  · intro ts us e e' h
    have hend := State.runTokens_sameLines h e e'
    generalize State.initial.runTokens e ts = first, State.initial.runTokens e' us = second at hend ⊢
    cases hend with
    | @parsed c d hbare => exact .inl ⟨c, d, rfl, rfl, hbare⟩
    | @refused i t u expected found ht hu => exact .inr ⟨expected, found, i, t, u, ht, hu, rfl, rfl⟩
  · intro name p gap s c hreaches hrest hgap
    obtain ⟨ks, n, hless, hmore⟩ := exists_outline_of_blankLines hreaches hrest hgap
    rw [parse_of_outline, parse_of_outline, hless, hmore]
    cases hfault : (outline s.toList).fault with
    | some code => simp only [Outline.behind, hfault]
    | none =>
        simp only [Outline.behind, hfault]
        have hlines := Token.sameLines_replicate ks (outline s.toList).kinds n
        rw [List.append_assoc, List.append_assoc]
        exact (Parser.readModule?_sameLines hlines).symm

/-- Three newlines behind the first line of a class repeat the one that ends it, and lines with blanks may
be put there. -/
theorem Source.parse_blankLines_class :
    let s := ofText "in" ("class a" ++ "\n" ++ "end")
    let c : Cursor := ⟨⟨1, 8⟩, "\nend".toList⟩
    let spread := ofText "in" ("class a" ++ "\n" ++ "\n \t\n\n  " ++ "end")
    (∃ a b, State.initial.runTokens ⟨2, 4⟩ s.tokens.tokens = .ok a ∧
      State.initial.runTokens ⟨5, 6⟩ spread.tokens.tokens = .ok b ∧ a.bare = b.bare) ∧
    s.cursor.Reaches c ∧ s.parse.toOption.isSome = true ∧
    spread.parse.toOption.map Class.bare = s.parse.toOption.map Class.bare := by
  intro s c spread
  have hkinds : s.tokens.tokens.map (·.kind) =
      [.keyword .classKw, .identifier "a", .symbol .newline, .keyword .endKw] := by
    decide +kernel
  have hspread : spread.tokens.tokens.map (·.kind) =
      [.keyword .classKw, .identifier "a", .symbol .newline, .symbol .newline, .symbol .newline,
        .symbol .newline, .keyword .endKw] := by
    decide +kernel
  have hlines : SameLines (s.tokens.tokens.map (·.kind)) (spread.tokens.tokens.map (·.kind)) := by
    rw [hkinds, hspread]
    exact Token.sameLines_replicate [.keyword .classKw, .identifier "a"] [.keyword .endKw] 3
  have hname : (Cursor.mk ⟨1, 7⟩ "a\nend".toList).Reaches c := by
    have hl : (Cursor.mk ⟨1, 7⟩ "a\nend".toList).lexeme? = some ⟨.token (.identifier "a"), 0⟩ := by
      decide +kernel
    have hpass : (Cursor.mk ⟨1, 7⟩ "a\nend".toList).pass ⟨.token (.identifier "a"), 0⟩ = c := by
      decide +kernel
    exact .pass hl (Lexeme.faultless_of_token rfl) (hpass ▸ .here c)
  have hblank : (Cursor.mk ⟨1, 6⟩ " a\nend".toList).Reaches c := .blank (b := ' ') rfl hname
  have hreaches : s.cursor.Reaches c := by
    have hl : s.cursor.lexeme? = some ⟨.token (.keyword .classKw), 4⟩ := by decide +kernel
    have hpass : s.cursor.pass ⟨.token (.keyword .classKw), 4⟩ = ⟨⟨1, 6⟩, " a\nend".toList⟩ := by
      decide +kernel
    exact .pass hl (Lexeme.faultless_of_token rfl) (hpass ▸ hblank)
  have hparse : s.parse.toOption.isSome = true := by decide +kernel
  have hall : "\n \t\n\n  ".toList.all (fun b => b == '\n' || isBlank b) = true := by decide +kernel
  have hgap : ∀ b ∈ "\n \t\n\n  ".toList, b = '\n' ∨ isBlank b = true := by
    simpa only [List.all_eq_true, Bool.or_eq_true, beq_iff_eq] using hall
  have hagain := parse_blankLines.2 "in" "class a" "\n \t\n\n  " "end" c hreaches (by decide +kernel) hgap
  refine ⟨?_, hreaches, hparse, hagain⟩
  have hok : (State.initial.runTokens ⟨2, 4⟩ s.tokens.tokens).toOption.isSome = true := by
    decide +kernel
  rcases parse_blankLines.1 _ _ ⟨2, 4⟩ ⟨5, 6⟩ hlines with h | ⟨_, _, _, _, _, -, -, h, -⟩
  · exact h
  · rw [h] at hok
    cases hok

end Bucket
