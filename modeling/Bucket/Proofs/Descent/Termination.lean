/-
# The parser comes to an end

All calls of procedures come to an end, since a token is read between a call and a later one of the same
procedure that it leads to, or between two rounds of a loop (`Source.descent_terminates`). The measure is
the number of tokens that are left, and a level for the procedures where nothing is read. What the
procedure for programs answers is what a source holds (`Source.parse_of_returns`).
-/
import Bucket.Proofs.Descent.Definitions
import Bucket.Proofs.Descent.Progress
import Bucket.Proofs.Parsing.FirstFault

namespace Bucket

namespace Parser

namespace Call

/-- Each procedure does as a parser does, from every place where it may be called. -/
theorem follows (c : Call) (p : c.agreement.Place) :
    Follows (c.agreement.before p) c.script c.reader (c.agreement.after p) := by
  obtain ⟨procedure, input, r⟩ := c
  cases procedure with
  | program => exact Follows.program rfl
  | programRound => exact Follows.programRound rfl
  | globalStatement => exact Follows.globalStatement p rfl
  | classDef => exact Follows.classDef p rfl
  | classRound => exact Follows.classRound p.1 p.2.1 p.2.2 rfl
  | methodDef => exact Follows.methodDef p rfl
  | argumentRound => exact Follows.argumentRound p.val p.property rfl
  | argument => exact Follows.argument p rfl
  | fieldDecl => exact Follows.fieldDecl p rfl
  | block => exact Follows.block p rfl
  | blockRound => exact Follows.blockRound p rfl
  | statement => exact Follows.statement p.val p.property.1 p.property.2 rfl
  | ifStmt => exact Follows.ifStmt p rfl
  | elifRound =>
      obtain ⟨⟨b, c⟩, hb, hbefore, hends⟩ := p
      exact Follows.elifRound hb hbefore hends rfl
  | loopStmt => exact Follows.loopStmt p rfl
  | expression => exact Follows.expression p rfl
  | orExpr => exact Follows.orExpr p rfl
  | andExpr => exact Follows.andExpr p rfl
  | equalityExpr => exact Follows.equalityExpr p rfl
  | comparisonExpr => exact Follows.comparisonExpr p rfl
  | additiveExpr => exact Follows.additiveExpr p rfl
  | additiveRound => exact Follows.additiveRound p rfl
  | multiplicativeExpr => exact Follows.multiplicativeExpr p rfl
  | multiplicativeRound => exact Follows.multiplicativeRound p rfl
  | unaryExpr => exact Follows.unaryExpr p rfl
  | powerExpr => exact Follows.powerExpr p rfl
  | postfixExpr => exact Follows.postfixExpr p rfl
  | postfixRound => exact Follows.postfixRound rfl
  | primaryExpr => exact Follows.primaryExpr p rfl
  | arguments =>
      obtain ⟨p, hbrackets, hempty⟩ := p
      exact Follows.arguments p hbrackets hempty rfl
  | argumentsRound => exact Follows.argumentsRound p.val p.property rfl

/-- A call agrees with a parser from all places where it may stand. -/
theorem agreed_of_returns {c : Call} {res : Result c.procedure.Output} (h : c.Returns res) :
    c.agreed.Holds res := by
  have hensures : ∀ c : Call, c.script.Ensures (fun _ => True) Call.agreed c.reader c.agreed :=
    fun c => Script.Ensures.forall c.follows
  exact Runs.holds (fun c => ⟨_, hensures c⟩) (hensures c) h

end Call

end Parser

/-! ## Sources -/

/-- The end of the file is none of the tokens in front of it. -/
theorem Cursor.isEndOfFile_of_mem_tokens {c : Cursor} {t : Token} (ht : t ∈ c.tokens.tokens) :
    t.isEndOfFile = false := by
  fun_induction Cursor.tokens c with
  | case1 => cases ht
  | case2 => cases ht
  | case3 c first next hpull hfirst ih =>
      rcases List.mem_cons.1 ht with rfl | ht
      · simpa using hfirst
      · exact ih ht

namespace Source

open Bucket.Parser

/-- A reader that shows the first token of a source, or the fault in its place. -/
def reader (s : Source) : Except Diagnostic Reader :=
  Reader.ofTokens s.tokens fun _ => Cursor.isEndOfFile_of_mem_tokens

/-- A source is read by going from state to state with its tokens. -/
theorem parse_of_reader {s : Source} {r : Reader} (h : s.reader = .ok r) :
    s.parse = State.initial.answer r := by
  rw [State.answer, Reader.tokens_of_ofTokens h]
  exact State.run_eq_tokens _ _

/-- What the procedure for programs answers is what a source holds. -/
theorem parse_of_returns {s : Source} {r : Reader} (h : s.reader = .ok r) {res : Result Class}
    (hres : Parser.Call.Returns ⟨.program, (), r⟩ res) : s.parse = res.map Prod.fst := by
  have hagreed := Parser.Call.agreed_of_returns hres
  rw [parse_of_reader h]
  cases res with
  | ok answer => exact hagreed ()
  | error d => exact hagreed ()

/-- The parser comes to an end. A call that a call leads to has fewer tokens left, or just as many and a
lower level. Between a call and a later one of the same procedure that it leads to, which may be the next
round of a loop, a token is read that is not the end of the file. So each call, on whatever tokens it is
made, has one result, and that of the procedure for programs is what a source holds. -/
theorem descent_terminates :
    (∀ c c' : Parser.Call, c.Calls c' → c'.left < c.left ∨
      c'.left = c.left ∧ c'.procedure.level < c.procedure.level) ∧
    (∀ c c' : Parser.Call, Relation.TransGen Parser.Call.Calls c c' → c'.procedure = c.procedure →
      c'.left < c.left) ∧
    (∀ c : Parser.Call, ∃! res, c.Returns res) ∧
    ∀ s : Source, match s.reader with
      | .ok r => ∀ res, Parser.Call.Returns ⟨.program, (), r⟩ res → s.parse = res.map Prod.fst
      | .error d => s.parse = .error d := by
  refine ⟨fun c c' => Parser.Call.under_of_calls, fun c c' => Parser.Call.left_lt_of_transGen,
    Parser.Call.existsUnique_returns, fun s => ?_⟩
  cases h : s.reader with
  | ok r => exact fun res => parse_of_returns h
  | error d =>
      have htokens : s.tokens = ⟨[], .error d⟩ := Reader.eq_of_ofTokens h
      have hparse := parse_of_fault (congrArg Tokens.stop htokens)
      rwa [htokens] at hparse

/-- An empty line and a field: the second round of the loop of a program is called from the first one
with less to read, the run returns, and what it returns is the parse, which succeeds. -/
theorem descent_terminates_line :
    let s := ofText "in" "\nx: (a)\n"
    ∃ r r' res, s.reader = .ok r ∧
      Relation.TransGen Parser.Call.Calls ⟨.programRound, [], r⟩ ⟨.programRound, [], r'⟩ ∧
      r'.left < r.left ∧ Parser.Call.Returns ⟨.program, (), r⟩ res ∧
      s.parse = res.map Prod.fst ∧ s.parse.toOption.isSome = true := by
  intro s
  obtain ⟨-, hloop, hresult, hparse⟩ := descent_terminates
  have hkinds : s.tokens.tokens.map (·.kind) = [.symbol .newline, .identifier "x", .symbol .colon,
      .symbol .openParenthesis, .identifier "a", .symbol .closeParenthesis, .symbol .newline] := by
    decide +kernel
  have hparse := hparse s
  cases h : s.reader with
  | error d =>
      rw [Reader.eq_of_ofTokens h] at hkinds
      cases hkinds
  | ok r =>
      rw [h] at hparse
      rw [← Reader.tokens_of_ofTokens h] at hkinds
      cases r with
      | ended fileEnd => cases hkinds
      | token t behind going =>
          obtain ⟨_ | ⟨u, rest⟩, stop⟩ := behind
          · cases (List.cons.inj hkinds).2
          obtain ⟨k, span⟩ := t
          obtain ⟨rfl, -⟩ := List.cons.inj hkinds
          -- The first round passes the empty line, and the second one begins behind it.
          have hcalls : Parser.Call.Calls
              ⟨.programRound, [], .token ⟨.symbol .newline, span⟩ ⟨u :: rest, stop⟩ going⟩
              ⟨.programRound, [], .token u ⟨rest, stop⟩
                fun v hv => going v (List.mem_cons_of_mem _ hv)⟩ :=
            .look (.look (.next rfl .here))
          have hleft := hloop _ _ (.single hcalls) rfl
          obtain ⟨res, hres, -⟩ := hresult ⟨.program, (), .token _ ⟨u :: rest, stop⟩ going⟩
          exact ⟨_, _, res, rfl, .single hcalls, hleft, hres, hparse res hres, by decide +kernel⟩

end Source

end Bucket
