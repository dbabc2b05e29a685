/-
# Every state can be completed

Whatever a parser has read, some more tokens make it a program (`State.completable`). An operand may
always be a name, an expression is over where its brackets are closed or its line ends, and every body
that is open is closed by an `end` at the beginning of a line.
-/
import Bucket.Proofs.Lexing.Spelling
import Bucket.Proofs.Parsing.Erasure

namespace Bucket.Parser

namespace State

/-- Whether tokens that a text can hold lead from a state to the end of a program. -/
def Completable (s : State) : Prop :=
  ∃ kinds m, (∀ k ∈ kinds, Token.Kind.isWritable k = true) ∧
    (s.reads kinds).bind (·.endLine.module? .first) = some m

/-- A state can be completed when one token leads to a state that can. -/
theorem Completable.of_step {s s' : State} {k : Token.Kind} (hk : k.isWritable = true)
    (hstep : s.step ⟨k, .first⟩ = some s') (h : s'.Completable) : s.Completable := by
  obtain ⟨kinds, m, hkinds, hm⟩ := h
  refine ⟨k :: kinds, m, ?_, ?_⟩
  · intro k' hk'
    rcases List.mem_cons.1 hk' with rfl | hk'
    · exact hk
    · exact hkinds k' hk'
  · rw [reads_cons, hstep]
    exact hm

/-- A name that completes whatever a name may complete. -/
theorem isWritable_name : (Token.Kind.identifier "a").isWritable = true := by decide +kernel

section

variable {s : State}

theorem Completable.of_newline {s' : State} (hstep : s.step ⟨.symbol .newline, .first⟩ = some s')
    (h : s'.Completable) : s.Completable := .of_step rfl hstep h

theorem Completable.of_name {s' : State} (hstep : s.step ⟨.identifier "a", .first⟩ = some s')
    (h : s'.Completable) : s.Completable := .of_step isWritable_name hstep h

theorem Completable.of_end {s' : State} (hstep : s.step ⟨.keyword .endKw, .first⟩ = some s')
    (h : s'.Completable) : s.Completable := .of_step rfl hstep h

end

/-! ## Declarations -/

/-- The classes around a declaration can be closed behind it. -/
theorem completable_add (e : Enclosing) (d : Declaration) : (declarations (e.add d)).Completable := by
  induction e generalizing d with
  | module done => exact ⟨[], ⟨_, _, _⟩, by simp, rfl⟩
  | inClass opener name done outer ih => exact .of_end rfl (.of_newline rfl (ih _))

theorem completable_declarations (e : Enclosing) : (declarations e).Completable := by
  cases e with
  | module done => exact ⟨[], ⟨_, _, _⟩, by simp, rfl⟩
  | inClass opener name done outer => exact .of_end rfl (.of_newline rfl (completable_add outer _))

theorem completable_definitionLine (e : Enclosing) : (definitionLine e).Completable :=
  .of_newline rfl (completable_declarations e)

/-! ## Statements -/

/-- The blocks around a statement can be closed behind it. -/
theorem completable_statements_add (b : Block) (s : Statement) :
    (statements (b.add s)).Completable := by
  induction b generalizing s with
  | method header returns done => exact .of_end rfl (completable_definitionLine _)
  | nested opened done outer ih =>
      cases opened with
      | loop opener => exact .of_end rfl (.of_newline rfl (ih _))
      | _ => exact .of_end rfl (ih _)

theorem completable_statements (b : Block) : (statements b).Completable := by
  cases b with
  | method header returns done => exact .of_end rfl (completable_definitionLine _)
  | nested opened done outer =>
      cases opened with
      | loop opener => exact .of_end rfl (.of_newline rfl (completable_statements_add outer _))
      | _ => exact .of_end rfl (completable_statements_add outer _)

theorem completable_afterArguments (h : Header) : (afterArguments h).Completable :=
  .of_newline rfl (completable_statements _)

/-! ## Expressions -/

/-- An expression that is for something is over where its line ends, or the parentheses of the
arguments. -/
theorem completable_pending_slot (p : Pending) (waiting : List Waiting) (slot : Slot) :
    (pending p waiting (.slot slot)).Completable := by
  cases slot with
  | field name span outer => exact .of_newline rfl (completable_declarations _)
  | argument name span header =>
      exact .of_step (k := .symbol .closeParenthesis) rfl rfl (completable_afterArguments _)
  | _ => exact .of_newline rfl (completable_statements _)

/-- The brackets around an expression can be closed behind it. -/
theorem completable_pending (p : Pending) (waiting : List Waiting) (context : Context) :
    (pending p waiting context).Completable := by
  induction context generalizing p waiting with
  | slot slot => exact completable_pending_slot p waiting slot
  | group opener outerWaiting outer ih =>
      exact .of_step (k := .symbol .closeParenthesis) rfl rfl (ih _ _)
  | arguments call outerWaiting outer ih =>
      obtain ⟨brackets, receiver, method, arguments⟩ := call
      cases brackets with
      | round => exact .of_step (k := .symbol .closeParenthesis) rfl rfl (ih _ _)
      | square => exact .of_step (k := .symbol .closeBracket) rfl rfl (ih _ _)

theorem completable_operand (waiting : List Waiting) (context : Context) :
    (operand waiting context).Completable :=
  .of_name rfl (completable_pending _ waiting context)

/-! ## States -/

theorem completable_argumentColon (name : String) (span : Span) (h : Header) :
    (argumentColon name span h).Completable :=
  .of_step (k := .symbol .colon) rfl rfl (completable_operand _ _)

/-- Every state can be completed. -/
theorem completable (s : State) : s.Completable := by
  cases s with
  | declarations e => exact completable_declarations e
  | className opener outer => exact .of_name rfl (.of_newline rfl (completable_declarations _))
  | classLine opener name outer => exact .of_newline rfl (completable_declarations _)
  | definitionLine outer => exact completable_definitionLine outer
  | fieldColon name span outer =>
      exact .of_step (k := .symbol .colon) rfl rfl (completable_operand _ _)
  | methodName opener outer => exact .of_name rfl (.of_newline rfl (completable_statements _))
  | afterMethodName h => exact .of_newline rfl (completable_statements _)
  | firstArgument h =>
      exact .of_step (k := .symbol .closeParenthesis) rfl rfl (completable_afterArguments h)
  | argumentName h => exact .of_name rfl (completable_argumentColon _ _ h)
  | argumentColon name span h => exact completable_argumentColon name span h
  | afterArguments h => exact completable_afterArguments h
  | statements b => exact completable_statements b
  | statementLine b => exact .of_newline rfl (completable_statements b)
  | ret span b => exact .of_newline rfl (completable_statements _)
  | operand waiting context => exact completable_operand waiting context
  | memberName receiver waiting context =>
      exact .of_name rfl (completable_pending _ waiting context)
  | pending p waiting context => exact completable_pending p waiting context

end State

end Bucket.Parser
