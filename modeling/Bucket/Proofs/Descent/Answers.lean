/-
# The answers of a parser

What a parser answers that goes on from a state with the tokens that a reader has left (`State.answer`). A
state reads the token that is shown, and then the answer is that of the next state, or tells what was
expected (`State.answer_eq_feed`). Where there is only one kind of token that may stand next, the state is
said to need it (`Reader.pass`).
-/
import Bucket.Proofs.Descent.Script
import Bucket.Proofs.Parsing.Run

namespace Bucket.Parser

/-! ## Answers -/

/-- What a parser answers in the end. -/
abbrev Answer := Except Diagnostic Class

/-- What a parser answers that goes on from a state with the tokens that are left. Of a fault behind these
it only hears when it has read them all. -/
def State.answer (s : State) (r : Reader) : Answer :=
  match r.tokens.stop with
  | .ok fileEnd => s.runTokens fileEnd r.tokens.tokens
  | .error d => .error ((s.refusal? r.tokens.tokens).getD d)

namespace Reader

/-- What a parser answers that goes on from a state behind the token that is shown. -/
def goOn (r : Reader) (s : State) : Answer := r.next.bind s.answer

/-- What a parser answers that reads the token that is shown. It goes on behind it, or tells what was
expected in its place. -/
def feed (r : Reader) (next : Option State) (e : Expectation) : Answer :=
  match next with
  | some s => r.goOn s
  | none => .error (.syntactic e.text r.current.kind.describe r.current.span.start)

/-- What a parser answers that needs a token of a kind next. -/
def pass (r : Reader) (k : Token.Kind) (s : Span → State) : Answer :=
  r.feed (if r.current.kind = k then some (s r.current.span) else none) (.kind k)

/-- What a parser answers that needs a name next. -/
def passName (r : Reader) (e : Expectation) (s : String → Span → State) : Answer :=
  r.feed (match r.current.kind with
    | .identifier name => some (s name r.current.span)
    | _ => none) e

end Reader

/-- A state reads the token that is shown, if the file may not end there. -/
theorem State.answer_eq_feed {s : State} {r : Reader}
    (h : r.current.isEndOfFile = true → s.finish r.current = .error (s.diagnostic r.current)) :
    s.answer r = r.feed (s.step r.current) (s.expected r.current.kind) := by
  cases r with
  | ended fileEnd =>
      have hstep : s.step (Reader.ended fileEnd).current = none := s.step_endOfFile _
      rw [hstep]
      exact h rfl
  | token t behind going =>
      obtain ⟨rest, stop⟩ := behind
      show State.answer s (.token t ⟨rest, stop⟩ going) = _
      cases hstep : s.step t with
      | none =>
          rw [show s.step (Reader.token t ⟨rest, stop⟩ going).current = none from hstep]
          cases stop with
          | ok fileEnd => simp only [answer, Reader.tokens, Tokens.cons, runTokens, hstep]; rfl
          | error d => simp only [answer, Reader.tokens, Tokens.cons, refusal?, hstep]; rfl
      | some s' =>
          rw [show s.step (Reader.token t ⟨rest, stop⟩ going).current = some s' from hstep]
          cases stop with
          | ok fileEnd =>
              simp only [answer, Reader.tokens, Tokens.cons, runTokens, hstep]
              cases rest <;> rfl
          | error d =>
              simp only [answer, Reader.tokens, Tokens.cons, refusal?, hstep]
              cases rest <;> rfl

/-- The file may end a line behind a definition. -/
theorem State.answer_definitionLine_of_isEndOfFile {outer : Enclosing} {r : Reader}
    (h : r.current.isEndOfFile = true) :
    (definitionLine outer).answer r = (declarations outer).answer r := by
  obtain ⟨fileEnd, rfl⟩ := Reader.exists_eq_ended h
  rfl

/-! ## Tokens that are needed -/

section Needed

variable {r : Reader}

theorem match_newline (k : Token.Kind) (s : State) :
    (match k with | .symbol .newline => some s | _ => none) =
      if k = .symbol .newline then some s else none := by
  split
  case h_1 => rfl
  case h_2 hk => exact (if_neg hk).symm

theorem match_colon (k : Token.Kind) (s : State) :
    (match k with | .symbol .colon => some s | _ => none) =
      if k = .symbol .colon then some s else none := by
  split
  case h_1 => rfl
  case h_2 hk => exact (if_neg hk).symm

theorem match_closeParenthesis (k : Token.Kind) (s : State) :
    (match k with | .symbol .closeParenthesis => some s | _ => none) =
      if k = .symbol .closeParenthesis then some s else none := by
  split
  case h_1 => rfl
  case h_2 hk => exact (if_neg hk).symm

namespace State

theorem answer_className (opener : Span) (outer : Enclosing) :
    (className opener outer).answer r =
      r.passName .className fun name _ => classLine opener name outer :=
  answer_eq_feed fun _ => rfl

theorem answer_classLine (opener : Span) (name : String) (outer : Enclosing) :
    (classLine opener name outer).answer r =
      r.pass (.symbol .newline) fun _ => declarations (.inClass opener name [] outer) :=
  (answer_eq_feed fun _ => rfl).trans (congrArg (r.feed · _) (match_newline _ _))

theorem answer_fieldColon (name : String) (span : Span) (outer : Enclosing) :
    (fieldColon name span outer).answer r =
      r.pass (.symbol .colon) fun _ => operand [] (.slot (.field name span outer)) :=
  (answer_eq_feed fun _ => rfl).trans (congrArg (r.feed · _) (match_colon _ _))

theorem answer_methodName (opener : Span) (outer : Enclosing) :
    (methodName opener outer).answer r =
      r.passName .methodName fun name _ => afterMethodName ⟨opener, name, [], outer⟩ :=
  answer_eq_feed fun _ => rfl

theorem answer_argumentName (h : Header) :
    (argumentName h).answer r = r.passName .argumentName fun name span => argumentColon name span h :=
  answer_eq_feed fun _ => rfl

theorem answer_argumentColon (name : String) (span : Span) (h : Header) :
    (argumentColon name span h).answer r =
      r.pass (.symbol .colon) fun _ => operand [] (.slot (.argument name span h)) :=
  (answer_eq_feed fun _ => rfl).trans (congrArg (r.feed · _) (match_colon _ _))

theorem answer_statementLine (b : Block) :
    (statementLine b).answer r = r.pass (.symbol .newline) fun _ => statements b :=
  (answer_eq_feed fun _ => rfl).trans (congrArg (r.feed · _) (match_newline _ _))

theorem answer_memberName (receiver : Expression) (waiting : List Waiting) (context : Context) :
    (memberName receiver waiting context).answer r =
      r.passName .methodName fun name span => pending (.member receiver name span) waiting context :=
  answer_eq_feed fun _ => rfl

end State

end Needed

end Bucket.Parser
