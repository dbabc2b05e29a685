/-
# Programs one behind the other

When the text of a program is whole lines, more text may be put behind it. Then each stage gives what it
gives for the two texts, the second one some lines further down: the tokens, the tree, the objects, the
printed text and the fault that is told (`Source.concatenation`).
-/
import Bucket.Proofs.Lexing.Concatenation
import Bucket.Proofs.Parsing.Run
import Bucket.Proofs.Printing.Moving
import Bucket.Proofs.Printing.RoundTrip
import Bucket.Proofs.Scoping.Growth
import Bucket.Proofs.Scoping.Moving

namespace Bucket

open Bucket.Parser (State)

/-! ## Newlines -/

namespace Parser

variable {s s' : State} {span : Span}

theorem Context.endLine_of_deliver {c : Context} {e : Expression}
    (h : c.deliver e ⟨.symbol .newline, span⟩ = some s') : s'.endLine = s' := by
  cases c with
  | slot slot => cases slot <;> cases h <;> rfl
  | group opener waiting outer => cases h
  | arguments call waiting outer =>
      obtain ⟨brackets, receiver, method, arguments⟩ := call
      cases brackets <;> cases h

theorem stepOperand_newline (waiting : List Waiting) (c : Context) (span : Span) :
    stepOperand waiting c ⟨.symbol .newline, span⟩ = none := by
  cases c with
  | arguments call outerWaiting outer => simp [stepOperand, PrefixOp.ofKind?, closeEmpty]
  | _ => rfl

namespace State

/-- Behind a newline no line of a definition is left to end. -/
theorem endLine_of_step (h : s.step ⟨.symbol .newline, span⟩ = some s') : s'.endLine = s' := by
  cases s with
  | operand waiting context => cases (stepOperand_newline waiting context span).symm.trans h
  | pending p waiting context => exact Context.endLine_of_deliver h
  | _ => cases h <;> rfl

/-- Behind tokens of which the last is a newline no line of a definition is left to end. -/
theorem endLine_of_readTokens {ts : List Token} (hs : s.endLine = s)
    (hlast : ∀ t ∈ ts.getLast?, t.kind = .symbol .newline) (h : s.readTokens ts = some s') :
    s'.endLine = s' := by
  cases hts : ts.getLast? with
  | none =>
      obtain rfl := List.getLast?_eq_none_iff.1 hts
      obtain rfl := Option.some.inj h
      exact hs
  | some t =>
      obtain ⟨front, rfl⟩ := List.getLast?_eq_some_iff.1 hts
      obtain ⟨k, span⟩ := t
      obtain rfl : k = .symbol .newline := hlast _ hts
      rw [readTokens_append] at h
      obtain ⟨before, -, h⟩ := Option.bind_eq_some_iff.1 h
      rw [readTokens_cons] at h
      obtain ⟨behind, hstep, h⟩ := Option.bind_eq_some_iff.1 h
      obtain rfl := Option.some.inj h
      exact endLine_of_step hstep

/-! ## More tokens -/

/-- Behind tokens that can be read a parser goes on from the state that they lead to. -/
theorem runTokens_of_readTokens {ts : List Token} (h : s.readTokens ts = some s')
    (fileEnd : Position) (more : List Token) :
    s.runTokens fileEnd (ts ++ more) = s'.runTokens fileEnd more ∧
      s.refusal? (ts ++ more) = s'.refusal? more := by
  induction ts generalizing s with
  | nil =>
      obtain rfl := Option.some.inj h
      exact ⟨rfl, rfl⟩
  | cons t rest ih =>
      rw [readTokens_cons] at h
      obtain ⟨next, hstep, h⟩ := Option.bind_eq_some_iff.1 h
      rw [List.cons_append, runTokens, refusal?, hstep]
      exact ih h

/-- The token that is refused is the same in other places. -/
theorem refusal?_move (f : Motion) (front : List Declaration) (s : State) (ts : List Token) :
    (s.move f front).refusal? (ts.map (·.move f)) = (s.refusal? ts).map (·.move f) := by
  induction ts generalizing s with
  | nil => rfl
  | cons t rest ih =>
      rw [List.map_cons, refusal?, refusal?, ← step_move, diagnostic_move]
      cases s.step t with
      | some s' => exact ih s'
      | none => rfl

/-- Where a program may end and no line is left to end, the parser is where it was at the beginning,
with declarations in front. -/
theorem eq_initial_of_module? {fileEnd : Position} {c : Class} (h : s.module? fileEnd = some c)
    (f : Motion) : s = initial.move f c.body := by
  unfold module? at h
  split at h
  · obtain rfl := Option.some.inj h
    rw [initial, move, Enclosing.move, List.map_nil, List.append_nil]
  · cases h

end State

end Parser

/-- A text behind the whole lines of a program is parsed as it is alone, some lines further down and
behind the declarations of that program. -/
theorem Source.parse_of_append {a b joined : Source} {c : Class} (h : a.parse = .ok c)
    (hlines : WholeLines a.chars) (hjoined : joined.chars = a.chars ++ b.chars) :
    let f := Motion.down (a.chars.count '\n')
    joined.parse = (b.parse.map (·.behind f c.body)).mapError (·.move f) := by
  intro f
  obtain ⟨ts, e, htokens, hrun⟩ := State.run_eq_ok_iff.1 h
  have hstop : a.tokens.stop = .ok e := by rw [Source.tokens, htokens]
  have hts : a.tokens.tokens = ts := by rw [Source.tokens, htokens]
  obtain ⟨s, hread, hmodule⟩ := State.exists_readTokens_of_runTokens hrun
  have hlast : ∀ t ∈ ts.getLast?, t.kind = .symbol .newline :=
    hts ▸ Cursor.kind_getLast?_tokens hstop hlines
  rw [State.endLine_of_readTokens rfl hlast hread] at hmodule
  obtain rfl := State.eq_initial_of_module? hmodule f
  have hall := Source.tokens_of_append hstop hlines hjoined
  rw [Source.parse, Source.parse, State.run_eq_tokens, State.run_eq_tokens,
    show joined.cursor.tokens = joined.tokens from rfl, hall, hts,
    show b.cursor.tokens = b.tokens from rfl]
  cases hb : b.tokens.stop with
  | ok e' =>
      simp only [Tokens.behind, Tokens.move, hb, Except.map, Except.mapError]
      rw [(State.runTokens_of_readTokens hread _ _).1]
      exact State.initial.runTokens_move e' b.tokens.tokens
  | error d =>
      simp only [Tokens.behind, Tokens.move, hb, Except.map, Except.mapError]
      rw [(State.runTokens_of_readTokens hread .first _).2, State.refusal?_move]
      cases State.initial.refusal? b.tokens.tokens <;> rfl

/-! ## Objects and text -/

/-- Declarations behind those of another class add what both of them add, one after the other. -/
theorem Module.analyze_behind (f : Motion) (c d : Class) :
    Module.analyze (d.behind f c.body) =
      match (Module.ofClass (d.behind f c.body)).init c with
      | (.error e, _) => .error e
      | (.ok _, m) =>
          match m.init d with
          | (.error e, _) => .error (e.move f)
          | (.ok _, m') => .ok m' := by
  rw [analyze, init, init, Class.behind, declareBody_append]
  rcases declareBody _ _ c.body with ⟨_ | _, m⟩
  · rfl
  · simp only [declareBody_move, init]
    rcases declareBody _ m d.body with ⟨_ | _, m'⟩ <;> rfl

/-- The text of declarations behind those of another module is that of both, one after the other. -/
theorem Class.render_behind (f : Motion) {c d : Class} (hc : c.isModule = true)
    (hd : d.isModule = true) : (d.behind f c.body).render = c.render ++ d.render := by
  have hbehind : (d.behind f c.body).isModule = true := hd
  rw [render, render, render, lines, lines, lines, if_pos hc, if_pos hd, if_pos hbehind,
    ← String.ofList_append, ← List.flatMap_append, behind, linesOfDeclarations_append,
    linesOfDeclarations_move]

/-! ## Programs -/

/-- A program whose text is whole lines, and a text behind it that does not begin with a byte order
mark. The tokens of the joined text are those of both, or the fault is that of the second one. If the
first one can be parsed, the joined text holds the declarations of both, or the fault is that of the
second one. If both can be parsed, the second one is declared in the module that the first one has
left, a fault in the first one is told before one in the second one, and the printed text is that of
both. All that is told of the second one is told for its place in the joined text, which lies as many
lines further down as the first one has. -/
theorem Source.concatenation (first second joined p s : String) (hp : p = "" ∨ ∃ q, p = q ++ "\n")
    (hs : s.toList.head? ≠ some byteOrderMark) :
    let f := Motion.down (p.toList.count '\n')
    let a := ofText first p
    let b := ofText second s
    let ab := ofText joined (p ++ s)
    (∀ ts, a.tokens.toExcept = .ok ts →
      ab.tokens.toExcept =
        (b.tokens.toExcept.map fun us => ts ++ us.map (·.move f)).mapError (·.move f)) ∧
    ∀ c, a.parse = .ok c →
      ab.parse = (b.parse.map (·.behind f c.body)).mapError (·.move f) ∧
      ∀ d, b.parse = .ok d → ∃ cd, ab.parse = .ok cd ∧
        cd.body = c.body ++ moveDeclarations f d.body ∧
        (Module.analyze cd =
          match (Module.ofClass cd).init c with
          | (.error e, _) => .error e
          | (.ok _, m) =>
              match m.init d with
              | (.error e, _) => .error (e.move f)
              | (.ok _, m') => .ok m') ∧
        cd.render = c.render ++ d.render := by
  intro f a b ab
  have hlines : WholeLines a.chars := wholeLines_ofText first hp
  have hjoined : ab.chars = a.chars ++ b.chars := chars_ofText_append joined first second p hs
  have hcount : a.chars.count '\n' = p.toList.count '\n' := count_newline_ofText first p
  refine ⟨fun ts hts => ?_, fun c hc => ?_⟩
  · obtain ⟨e, htokens⟩ := Tokens.exists_of_toExcept hts
    have htokens' := tokens_of_append (congrArg Tokens.stop htokens) hlines hjoined
    rw [htokens', htokens, hcount]
    rw [Tokens.toExcept, Tokens.toExcept, Tokens.behind, Tokens.move]
    cases b.tokens.stop <;> rfl
  · have hparse := parse_of_append hc hlines hjoined
    rw [hcount] at hparse
    refine ⟨hparse, fun d hd => ⟨d.behind f c.body, by rw [hparse, hd]; rfl, rfl, ?_, ?_⟩⟩
    · exact Module.analyze_behind f c d
    · exact Class.render_behind f (isModule_of_parse hc) (isModule_of_parse hd)

/-- A class of the first program is known in the second one, and a fault there is told for its place in
the joined text. -/
theorem Source.concatenation_class :
    let a := ofText "first" "class a\nend\n"
    let b := ofText "second" "b: a\nc: d\n"
    let ab := ofText "joined" ("class a\nend\n" ++ "b: a\nc: d\n")
    ∃ c d cd, a.parse = .ok c ∧ b.parse = .ok d ∧ ab.parse = .ok cd ∧
      cd.body = c.body ++ moveDeclarations (.down 2) d.body ∧
      cd.render = c.render ++ d.render ∧
      Module.analyze cd = .error (.semantic (.unknownName "d") ⟨4, 4⟩) := by
  intro a b ab
  have ha : a.parse.toOption.isSome = true := by decide +kernel
  have hb : b.parse.toOption.isSome = true := by decide +kernel
  obtain ⟨c, hc⟩ := Option.isSome_iff_exists.1 ha
  obtain ⟨d, hd⟩ := Option.isSome_iff_exists.1 hb
  have hc := eq_ok_of_toOption hc
  have hd := eq_ok_of_toOption hd
  obtain ⟨cd, hcd, hbody, -, hrender⟩ :=
    ((concatenation "first" "second" "joined" "class a\nend\n" "b: a\nc: d\n"
      (.inr ⟨"class a\nend", by decide⟩) (by decide)).2 c hc).2 d hd
  have hanalyze : (ab.parse >>= Module.analyze) =
      .error (.semantic (.unknownName "d") ⟨4, 4⟩) := by
    decide +kernel
  rw [hcd] at hanalyze
  exact ⟨c, d, cd, hc, hd, hcd, hbody, hrender, hanalyze⟩

end Bucket
