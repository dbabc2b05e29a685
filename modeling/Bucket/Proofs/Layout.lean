/-
# The layout of a program

Where the tokens of a program stand, and what stands between them, steers nothing. Two texts whose tokens
are of the same kinds are parsed to trees that are the same apart from places, or are refused with the
same words at the same token (`State.runTokens_sameKinds`). Two trees that are the same apart from places
declare the same objects, or have the same fault (`Class.analyze_sameTree`).
-/
import Bucket.Proofs.Parsing.FirstFault
import Bucket.Proofs.Printing.Moving
import Bucket.Proofs.Scoping.Analysis
import Bucket.Proofs.Scoping.Moving

namespace Bucket

open Bucket.Parser (State)

/-! ## Comparing tokens -/

/-- Reals without sign that are equal as numbers are the same. Only zero has two forms, and one of them
has a sign. -/
theorem Numeral.Binary64.eq_of_equals {x y : Binary64} (hx : x.isNegative = false)
    (hy : y.isNegative = false) (h : x.equals y = true) : x = y := by
  simp only [equals, Bool.and_eq_true, Bool.or_eq_true, beq_iff_eq] at h
  rcases h.2 with hbits | ⟨hxzero, hyzero⟩
  · cases x
    cases y
    exact congrArg mk hbits
  · rw [← Decimal.ofSize_size (x := x) (by simp [hx]), ← Decimal.ofSize_size (x := y) (by simp [hy]),
      hxzero, hyzero]

/-- Tokens that a text can hold are equal as words with a value only where they are the same. -/
theorem Token.Kind.eq_of_equals {a b : Kind} (ha : a.isWritable = true) (hb : b.isWritable = true)
    (h : a.equals b = true) : a = b := by
  unfold equals at h
  split at h
  · rename_i v w
    unfold Literal.equals at h
    split at h
    · rename_i x y
      simp only [isWritable, Bool.and_eq_true, Bool.not_eq_true'] at ha hb
      rw [Numeral.Binary64.eq_of_equals ha.2 hb.2 h]
    · rw [eq_of_beq h]
  · exact eq_of_beq h

/-- Tokens of two texts without faults that are equal one by one are of the same kinds. -/
theorem Source.map_kind_eq {a b : Source} {ts us : List Token} (ha : a.tokens.toExcept = .ok ts)
    (hb : b.tokens.toExcept = .ok us)
    (h : List.Forall₂ (fun t u => t.kind.equals u.kind = true) ts us) :
    ts.map (·.kind) = us.map (·.kind) := by
  have hwritable : ∀ {s : Source} {ts : List Token}, s.tokens.toExcept = .ok ts →
      ∀ t ∈ ts, t.kind.isWritable = true := by
    intro s ts hs
    obtain ⟨e, htokens⟩ := Tokens.exists_of_toExcept hs
    have := Cursor.isWritable_of_mem_tokens (c := s.cursor) (congrArg Tokens.stop htokens)
    rwa [show s.cursor.tokens = ⟨ts, .ok e⟩ from htokens] at this
  have hts := hwritable ha
  have hus := hwritable hb
  clear ha hb
  induction h with
  | nil => rfl
  | @cons t u ts us htu _ ih =>
      rw [List.forall_mem_cons] at hts hus
      rw [List.map_cons, List.map_cons, Token.Kind.eq_of_equals hts.1 hus.1 htu, ih hts.2 hus.2]

/-! ## Two parsers side by side -/

namespace Parser.State

/-- What is expected does not depend on places. -/
theorem expected_bare (s : State) (k : Token.Kind) : s.bare.expected k = s.expected k := by
  rw [bare_eq_move, expected_move]

theorem endLine_bare (s : State) : s.bare.endLine = s.endLine.bare := by
  rw [bare_eq_move, endLine_move, ← bare_eq_move]

/-- Whether two parsers that read some tokens each end alike: with trees that are the same apart from
places, or with the same words about the token at the same index. -/
inductive EndAlike (ts us : List Token) : Except Diagnostic Class → Except Diagnostic Class → Prop where
  | parsed {c d : Class} : c.bare = d.bare → EndAlike ts us (.ok c) (.ok d)
  | refused {i : Nat} {t u : Token} {expected found : String} :
      ts[i]? = some t → us[i]? = some u →
      EndAlike ts us (.error (.syntactic expected found t.span.start))
        (.error (.syntactic expected found u.span.start))

/-- Tokens that were read before only change the index. -/
theorem EndAlike.cons {ts us : List Token} {a b : Except Diagnostic Class} (t u : Token)
    (h : EndAlike ts us a b) : EndAlike (t :: ts) (u :: us) a b := by
  cases h with
  | parsed h => exact .parsed h
  | @refused i _ _ _ _ ht hu => exact .refused (i := i + 1) ht hu

variable {s s' : State}

/-- Parsers in the same state, apart from places, refuse a token of one kind with the same words. -/
theorem EndAlike.of_diagnostic (hs : s.bare = s'.bare) {t u : Token} (hk : t.kind = u.kind)
    (ts us : List Token) :
    EndAlike (t :: ts) (u :: us) (.error (s.diagnostic t)) (.error (s'.diagnostic u)) := by
  have hexpected : s.expected t.kind = s'.expected u.kind := by
    rw [← expected_bare s, hs, hk, expected_bare]
  rw [diagnostic, diagnostic, hexpected, hk]
  exact .refused (i := 0) rfl rfl

/-- Parsers in the same state, apart from places, end alike on tokens of the same kinds. -/
theorem runTokens_sameKinds (hs : s.bare = s'.bare) {ts us : List Token}
    (h : ts.map (·.kind) = us.map (·.kind)) (e e' : Position) :
    EndAlike (ts ++ [.endOfFile e]) (us ++ [.endOfFile e']) (s.runTokens e ts)
      (s'.runTokens e' us) := by
  -- Token by token the two parsers stay in the same state, apart from places.
  induction ts generalizing s s' us with
  | nil =>
      obtain rfl : us = [] := List.map_eq_nil_iff.1 h.symm
      have hmodule : (s.endLine.module? e).map Class.bare = (s'.endLine.module? e').map Class.bare := by
        rw [module?_bare, module?_bare, hs]
      rw [runTokens, runTokens, finish, finish, show (Token.endOfFile e).span.stop = e from rfl,
        show (Token.endOfFile e').span.stop = e' from rfl]
      cases hc : s.endLine.module? e with
      | some c =>
          rw [hc, Option.map_some] at hmodule
          obtain ⟨d, hd, hbare⟩ := Option.map_eq_some_iff.1 hmodule.symm
          rw [hd]
          exact .parsed hbare.symm
      | none =>
          rw [hc, Option.map_none] at hmodule
          rw [Option.map_eq_none_iff.1 hmodule.symm]
          have hline : s.endLine.bare = s'.endLine.bare := by
            rw [← endLine_bare, hs, endLine_bare]
          exact .of_diagnostic hline (t := .endOfFile e) (u := .endOfFile e') rfl [] []
  | cons t ts ih =>
      obtain ⟨u, us, rfl, hk, hks⟩ := List.map_eq_cons_iff.1 h.symm
      have hstep : (s.step t).map bare = (s'.step u).map bare := by
        rw [step_bare, step_bare, hs, Token.bare, Token.bare, hk]
      rw [runTokens, runTokens]
      cases ht : s.step t with
      | some next =>
          rw [ht, Option.map_some] at hstep
          obtain ⟨next', hu, hbare⟩ := Option.map_eq_some_iff.1 hstep.symm
          rw [hu]
          exact (ih hbare.symm hks.symm).cons t u
      | none =>
          rw [ht, Option.map_none] at hstep
          rw [Option.map_eq_none_iff.1 hstep.symm]
          exact .of_diagnostic hs hk.symm _ _

end Parser.State

/-! ## Two trees side by side -/

namespace Class

/-- What is wrong with a tree is wrong with its names. -/
theorem exists_of_analyze_error {c : Class} {e : Diagnostic} (h : Module.analyze c = .error e) :
    ∃ fault p, e = .semantic fault p := by
  obtain ⟨place, -, hfault⟩ := exists_fault?_of_analyze h
  obtain ⟨d, fault, p, -, he, -⟩ := exists_of_fault? hfault
  exact ⟨fault, p, he⟩

/-- Trees that are the same apart from places declare the same objects or have the same fault. -/
theorem analyze_sameTree {c d : Class} (h : c.bare = d.bare) :
    (∃ m, Module.analyze c = .ok m ∧ Module.analyze d = .ok m) ∨
    ∃ fault p q, Module.analyze c = .error (.semantic fault p) ∧
      Module.analyze d = .error (.semantic fault q) := by
  have hmove : (Module.analyze c).mapError (·.move .toFirst) =
      (Module.analyze d).mapError (·.move .toFirst) := by
    rw [← Module.analyze_bare, h, Module.analyze_bare]
  cases hc : Module.analyze c with
  | ok m =>
      cases hd : Module.analyze d with
      | ok m' =>
          rw [hc, hd] at hmove
          obtain rfl := Except.ok.inj hmove
          exact .inl ⟨m, rfl, rfl⟩
      | error e =>
          rw [hc, hd] at hmove
          cases hmove
  | error e =>
      cases hd : Module.analyze d with
      | ok m =>
          rw [hc, hd] at hmove
          cases hmove
      | error e' =>
          obtain ⟨fault, p, rfl⟩ := exists_of_analyze_error hc
          obtain ⟨fault', q, rfl⟩ := exists_of_analyze_error hd
          rw [hc, hd] at hmove
          obtain rfl : fault = fault' := (Diagnostic.semantic.inj (Except.error.inj hmove)).1
          exact .inr ⟨fault, p, q, rfl, rfl⟩

end Class

/-! ## Programs -/

/-- Layout steers nothing. Two texts without faults in their words, whose tokens are equal one by one, are
both parsed, to trees that are the same apart from places and are printed as the same text, or are both
refused, with the same words about the token at the same index. Two trees that are the same apart from
places declare the same objects, or are both refused with the same code and message. -/
theorem Source.parse_sameKinds :
    (∀ (a b : Source) (ts us : List Token), a.tokens.toExcept = .ok ts → b.tokens.toExcept = .ok us →
      List.Forall₂ (fun t u => t.kind.equals u.kind = true) ts us →
      (∃ c d, a.parse = .ok c ∧ b.parse = .ok d ∧ c.bare = d.bare ∧ c.render = d.render) ∨
      ∃ (expected found : String) (i : Nat) (t u : Token),
        a.tokens.stream[i]? = some t ∧ b.tokens.stream[i]? = some u ∧
        a.parse = .error (.syntactic expected found t.span.start) ∧
        b.parse = .error (.syntactic expected found u.span.start)) ∧
    ∀ c d : Class, c.bare = d.bare →
      (∃ m, Module.analyze c = .ok m ∧ Module.analyze d = .ok m) ∨
      ∃ e e', Module.analyze c = .error e ∧ Module.analyze d = .error e' ∧ e.code = e'.code ∧
        e.message = e'.message := by
  have hstream : ∀ {s : Source} {ts : List Token}, s.tokens.toExcept = .ok ts →
      s.tokens.stream = ts ++ [.endOfFile s.endPosition] := by
    intro s ts hs
    obtain ⟨e, htokens⟩ := Tokens.exists_of_toExcept hs
    rw [htokens, Tokens.stream, Cursor.stop_eq_endPosition (c := s.cursor) (e := e)
      (congrArg Tokens.stop htokens)]
    rfl
  constructor
  · intro a b ts us ha hb h
    have hend := State.runTokens_sameKinds (s := .initial) rfl (map_kind_eq ha hb h) a.endPosition
      b.endPosition
    rw [← hstream ha, ← hstream hb, ← parse_of_toExcept ha, ← parse_of_toExcept hb] at hend
    generalize a.parse = first, b.parse = second at hend ⊢
    cases hend with
    | @parsed c d hbare =>
        have hrender : c.render = d.render := by
          rw [← Class.render_bare, hbare, Class.render_bare]
        exact .inl ⟨c, d, rfl, rfl, hbare, hrender⟩
    | @refused i t u expected found ht hu =>
        exact .inr ⟨expected, found, i, t, u, ht, hu, rfl, rfl⟩
  · intro c d h
    rcases Class.analyze_sameTree h with hm | ⟨fault, p, q, hc, hd⟩
    · exact .inl hm
    · exact .inr ⟨_, _, hc, hd, rfl, rfl⟩

/-- Comments, blanks and another spelling of a number leave the tree and the printed text as they are. -/
theorem Source.parse_sameKinds_real :
    let a := ofText "a" "method m // one hundred\nret 1e2\nend"
    let b := ofText "b" "  method\tm\n  ret /* 1e2\n */ 100.0\nend"
    ∃ ts us c d, a.tokens.toExcept = .ok ts ∧ b.tokens.toExcept = .ok us ∧
      List.Forall₂ (fun t u => t.kind.equals u.kind = true) ts us ∧
      a.parse = .ok c ∧ b.parse = .ok d ∧ c.bare = d.bare ∧ c.render = d.render := by
  intro a b
  have hts : a.tokens.toExcept = .ok a.tokens.tokens := by decide +kernel
  have hus : b.tokens.toExcept = .ok b.tokens.tokens := by decide +kernel
  have hequal : List.Forall₂ (fun t u : Token => t.kind.equals u.kind = true) a.tokens.tokens
      b.tokens.tokens := by
    decide +kernel
  have hparse : a.parse.toOption.isSome = true := by decide +kernel
  rcases parse_sameKinds.1 a b _ _ hts hus hequal with ⟨c, d, h⟩ | ⟨expected, found, i, t, u, -, -, h, -⟩
  · exact ⟨_, _, c, d, hts, hus, hequal, h⟩
  · rw [h] at hparse
    cases hparse

end Bucket
