/-
# Procedures that call each other

A recursive descent parser is a set of procedures. Each looks at the token that is shown, moves on to the
next one, or calls procedures, itself among them. What a procedure does is kept as a `Script`, which says
nothing on whether its calls come to an end. The rounds of a loop are calls too, each of them made by the
round before.
-/
import Bucket.Parser.Basic

namespace Bucket

theorem Token.Kind.eq_endOfFile {k : Kind} (h : k.isEndOfFile = true) : k = symbol .endOfFile := by
  unfold isEndOfFile at h
  split at h
  · rfl
  · cases h

namespace Parser

/-! ## Readers -/

/-- A stream of tokens as a parser goes through it. A token is shown, behind which there are others up to
the end of the file or a fault. The end of the file, once it is shown, is shown for good. -/
inductive Reader where
  | token (current : Token) (behind : Tokens)
      (going : ∀ t ∈ current :: behind.tokens, t.isEndOfFile = false)
  | ended (fileEnd : Position)

namespace Reader

/-- A reader that shows the first of some tokens. -/
def ofTokens (ts : Tokens) (going : ∀ t ∈ ts.tokens, t.isEndOfFile = false) :
    Except Diagnostic Reader :=
  match ts, going with
  | ⟨t :: rest, stop⟩, going => .ok (.token t ⟨rest, stop⟩ going)
  | ⟨[], .ok fileEnd⟩, _ => .ok (.ended fileEnd)
  | ⟨[], .error d⟩, _ => .error d

/-- The token that is shown. -/
def current : Reader → Token
  | token t _ _ => t
  | ended fileEnd => .endOfFile fileEnd

/-- Shows the next token, or meets the fault that stands in its place. -/
def next : Reader → Except Diagnostic Reader
  | token _ behind going => ofTokens behind fun t ht => going t (List.mem_cons_of_mem _ ht)
  | ended fileEnd => .ok (.ended fileEnd)

/-- The token that is shown and those behind it, but for the end of the file. -/
def tokens : Reader → Tokens
  | token t behind _ => behind.cons t
  | ended fileEnd => ⟨[], .ok fileEnd⟩

/-- How many tokens are left, the one that is shown among them, but not the end of the file. -/
def left (r : Reader) : Nat := r.tokens.tokens.length

theorem tokens_of_ofTokens {ts : Tokens} {going : ∀ t ∈ ts.tokens, t.isEndOfFile = false}
    {r : Reader} (h : ofTokens ts going = .ok r) : r.tokens = ts := by
  unfold ofTokens at h
  split at h
  · rw [← Except.ok.inj h]
    rfl
  · rw [← Except.ok.inj h]
    rfl
  · cases h

/-- Where no token is shown, a fault stands in its place. -/
theorem eq_of_ofTokens {ts : Tokens} {going : ∀ t ∈ ts.tokens, t.isEndOfFile = false}
    {d : Diagnostic} (h : ofTokens ts going = .error d) : ts = ⟨[], .error d⟩ := by
  unfold ofTokens at h
  split at h
  · cases h
  · cases h
  · rw [Except.error.inj h]

/-- Moving on from a token leaves one less. -/
theorem left_lt_of_next {r r' : Reader} (h : r.next = .ok r') (hr : r.current.isEndOfFile = false) :
    r'.left < r.left := by
  cases r with
  | token t behind going =>
      have htokens : r'.tokens = behind := tokens_of_ofTokens h
      rw [left, left, htokens]
      exact Nat.lt_succ_self _
  | ended fileEnd => cases hr

/-- The end of the file is shown when there are no tokens left. -/
theorem exists_eq_ended {r : Reader} (hr : r.current.isEndOfFile = true) :
    ∃ fileEnd, r = .ended fileEnd := by
  cases r with
  | token t behind going =>
      have hgoing := going t (by simp)
      rw [show t.isEndOfFile = true from hr] at hgoing
      cases hgoing
  | ended fileEnd => exact ⟨fileEnd, rfl⟩

/-- The end of the file is shown for good. -/
theorem next_of_isEndOfFile {r : Reader} (hr : r.current.isEndOfFile = true) : r.next = .ok r := by
  obtain ⟨fileEnd, rfl⟩ := exists_eq_ended hr
  rfl

theorem left_le_of_next {r r' : Reader} (h : r.next = .ok r') : r'.left ≤ r.left := by
  cases hr : r.current.isEndOfFile with
  | false => exact Nat.le_of_lt (left_lt_of_next h hr)
  | true =>
      rw [next_of_isEndOfFile hr] at h
      exact Nat.le_of_eq (congrArg left (Except.ok.inj h)).symm

end Reader

/-! ## Procedures -/

/-- The procedures of the parser. One round of a loop is a procedure, which calls itself for the next
round. -/
inductive Procedure where
  | program
  | programRound
  | globalStatement
  | classDef
  | classRound
  | methodDef
  | argumentRound
  | argument
  | fieldDecl
  | block
  | blockRound
  | statement
  | ifStmt
  | elifRound
  | loopStmt
  | expression
  | orExpr
  | andExpr
  | equalityExpr
  | comparisonExpr
  | additiveExpr
  | additiveRound
  | multiplicativeExpr
  | multiplicativeRound
  | unaryExpr
  | powerExpr
  | postfixExpr
  | postfixRound
  | primaryExpr
  | arguments
  | argumentsRound

namespace Procedure

/-- What a procedure is given: for a round of a loop what was read in the rounds before, and for the
arguments of a call the brackets around them and whether there may be none. -/
@[reducible] def Input : Procedure → Type
  | programRound | classRound => List Declaration
  | argumentRound => List Argument
  | blockRound => List Statement
  | elifRound => List (Expression × List Statement)
  | additiveRound | multiplicativeRound | postfixRound => Expression
  | arguments => Brackets × Bool
  | argumentsRound => List Expression
  | _ => Unit

/-- What a procedure reads. Where it is an option, the construct may be missing. -/
@[reducible] def Output : Procedure → Type
  | program => Class
  | programRound => List Declaration
  | globalStatement => Option Declaration
  | classDef => Option Class
  | classRound => List Declaration × Span
  | methodDef => Option Method
  | argumentRound => List Argument
  | argument => Argument
  | fieldDecl => Option Field
  | block | blockRound => List Statement
  | statement => Statement
  | ifStmt | loopStmt => Option Statement
  | elifRound => List (Expression × List Statement)
  | arguments => List Expression × Span
  | argumentsRound => List Expression
  | _ => Expression

end Procedure

/-- A call of a procedure. -/
structure Call where
  procedure : Procedure
  input : procedure.Input
  reader : Reader

/-! ## Scripts -/

/-- What a procedure does: it has an answer or fails, looks at the token that is shown, moves on to the
next one, or calls a procedure. -/
inductive Script (α : Type) : Type where
  | done (answer : α)
  | fail (d : Diagnostic)
  | look (rest : Token → Script α)
  | next (rest : Script α)
  | call (p : Procedure) (input : p.Input) (rest : p.Output → Script α)

namespace Script

variable {α β : Type}

/-- Goes on with the answer of a script. -/
protected def bind (m : Script α) (k : α → Script β) : Script β :=
  match m with
  | done a => k a
  | fail d => fail d
  | look rest => look fun t => (rest t).bind k
  | next rest => next (rest.bind k)
  | call p input rest => call p input fun b => (rest b).bind k

instance : Monad Script where
  pure := done
  bind := Script.bind

/-- The token that is shown. -/
def current : Script Token := look done

/-- Moves on to the next token. -/
def advance : Script Unit := next (done ())

/-- Calls a procedure. -/
def perform (p : Procedure) (input : p.Input) : Script p.Output := call p input done

/-- Fails because something else was expected than the token that is shown. -/
def expected (e : Expectation) : Script α := do
  let t ← current
  fail (.syntactic e.text t.kind.describe t.span.start)

/-- Moves on if the token that is shown is of one of some kinds, and tells where it stood. -/
def accept (kinds : List Token.Kind) : Script (Option Span) := do
  let t ← current
  if t.kind ∈ kinds then
    advance
    return some t.span
  else
    return none

/-- Moves on from a token of one of some kinds, and fails at any other token. -/
def expect (kinds : List Token.Kind) (e : Expectation) : Script Span := do
  match ← accept kinds with
  | some span => return span
  | none => expected e

/-- Moves on from a token of a kind. -/
def expectKind (k : Token.Kind) : Script Span := expect [k] (.kind k)

/-- Moves on from the end of a line, where the file may end too. -/
def expectEndOfLine : Script Span := expect [.symbol .newline, .symbol .endOfFile] .lineEnd

/-- Moves on if the token that is shown is a name. -/
def identifier : Script (Option (String × Span)) := do
  let t ← current
  match t.kind with
  | .identifier name =>
      advance
      return some (name, t.span)
  | _ => return none

/-- Moves on from a name. -/
def expectIdentifier (e : Expectation) : Script (String × Span) := do
  match ← identifier with
  | some named => return named
  | none => expected e

/-- Moves on if the token that is shown stands for an operator, and tells for which one. The operators are
looked for in turn. -/
def operator : List (Token.Kind × α) → Script (Option α)
  | [] => return none
  | (k, op) :: rest => do
      match ← accept [k] with
      | some _ => return some op
      | none => operator rest

end Script

end Parser

end Bucket
