/-
# Parsing in other places

A parser that reads tokens in other places goes on as it would have, and the trees that it builds stand
in other places (`State.step_move`). Declarations that were read before only stand in front of those
that are read now. So reading a program behind others, in the places that it has there, gives what
reading it alone does, moved (`State.runTokens_move`).
-/
import Bucket.Parser.Basic
import Bucket.Proofs.Parsing.Motion

namespace Bucket

namespace Parser

/-! ## States -/

section

variable (f : Motion) (front : List Declaration)

/-- Class bodies in other places, behind declarations in front of the module. -/
def Enclosing.move : Enclosing → Enclosing
  | module done => module (front ++ done.map (·.move f))
  | inClass opener name done outer =>
      inClass (f.span opener) name (done.map (·.move f)) outer.move

/-- The first line of a method in other places. -/
def Header.move (h : Header) : Header :=
  ⟨f.span h.opener, h.name, h.arguments.map (·.move f), h.outer.move f front⟩

/-- A statement that was opened in other places. -/
def Opened.move : Opened → Opened
  | thenPart opener condition => thenPart (f.span opener) (condition.move f)
  | elifPart opener condition body alternatives current =>
      elifPart (f.span opener) (condition.move f) (moveBlock f body)
        (moveAlternatives f alternatives) (current.move f)
  | elsePart opener condition body alternatives =>
      elsePart (f.span opener) (condition.move f) (moveBlock f body)
        (moveAlternatives f alternatives)
  | loop opener => loop (f.span opener)

/-- Blocks in other places. -/
def Block.move : Block → Block
  | method header returns done =>
      method (header.move f front) (returns.map (·.move f)) (moveBlock f done)
  | nested opened done outer => nested (opened.move f) (moveBlock f done) outer.move

/-- What an expression is for in other places. -/
def Slot.move : Slot → Slot
  | field name span outer => field name (f.span span) (outer.move f front)
  | argument name span header => argument name (f.span span) (header.move f front)
  | returns header => returns (header.move f front)
  | ifCondition opener block => ifCondition (f.span opener) (block.move f front)
  | elifCondition opener condition body alternatives block =>
      elifCondition (f.span opener) (condition.move f) (moveBlock f body)
        (moveAlternatives f alternatives) (block.move f front)
  | ret span block => ret (f.span span) (block.move f front)
  | statement block => statement (block.move f front)

/-- An open call in other places. -/
def OpenCall.move (c : OpenCall) : OpenCall :=
  ⟨c.brackets, c.receiver.move f, c.method, moveExpressions f c.arguments⟩

/-- A waiting operator in other places. -/
def Waiting.move : Waiting → Waiting
  | prefixOp op opener => prefixOp op (f.span opener)
  | infixOp left op => infixOp (left.move f) op

/-- A context in other places. -/
def Context.move : Context → Context
  | slot s => slot (s.move f front)
  | group opener waiting outer => group (f.span opener) (waiting.map (·.move f)) outer.move
  | arguments call waiting outer =>
      arguments (call.move f) (waiting.map (·.move f)) outer.move

/-- A pending operand in other places. -/
def Pending.move : Pending → Pending
  | name n s => name n (f.span s)
  | member receiver n s => member (receiver.move f) n (f.span s)
  | whole e => whole (e.move f)

/-- A state in other places. -/
def State.move : State → State
  | declarations e => declarations (e.move f front)
  | className opener outer => className (f.span opener) (outer.move f front)
  | classLine opener name outer => classLine (f.span opener) name (outer.move f front)
  | definitionLine outer => definitionLine (outer.move f front)
  | fieldColon name span outer => fieldColon name (f.span span) (outer.move f front)
  | methodName opener outer => methodName (f.span opener) (outer.move f front)
  | afterMethodName h => afterMethodName (h.move f front)
  | firstArgument h => firstArgument (h.move f front)
  | argumentName h => argumentName (h.move f front)
  | argumentColon name span h => argumentColon name (f.span span) (h.move f front)
  | afterArguments h => afterArguments (h.move f front)
  | statements b => statements (b.move f front)
  | statementLine b => statementLine (b.move f front)
  | ret span b => ret (f.span span) (b.move f front)
  | operand waiting context => operand (waiting.map (·.move f)) (context.move f front)
  | memberName receiver waiting context =>
      memberName (receiver.move f) (waiting.map (·.move f)) (context.move f front)
  | pending p waiting context =>
      pending (p.move f) (waiting.map (·.move f)) (context.move f front)

end

variable {f : Motion} {front : List Declaration}

/-! ## Building trees -/

@[simp] theorem move_withSpan (s : Span) (e : Expression) :
    (e.withSpan s).move f = (e.move f).withSpan (f.span s) := by
  cases e <;> rfl

@[simp] theorem Enclosing.move_add (d : Declaration) (e : Enclosing) :
    (e.add d).move f front = (e.move f front).add (d.move f) := by
  cases e <;> simp [add, move]

@[simp] theorem Header.move_add (a : Argument) (h : Header) :
    (h.add a).move f front = (h.move f front).add (a.move f) := by
  simp [add, move]

@[simp] theorem Block.move_add (s : Statement) (b : Block) :
    (b.add s).move f front = (b.move f front).add (s.move f) := by
  cases b <;> simp [add, move, moveBlock_eq_map]

@[simp] theorem OpenCall.move_add (e : Expression) (c : OpenCall) :
    (c.add e).move f = (c.move f).add (e.move f) := by
  simp [add, move, moveExpressions_eq_map]

@[simp] theorem OpenCall.move_close (s : Span) (c : OpenCall) :
    (c.close s).move f = (c.move f).close (f.span s) := by
  simp [close, move, Expression.move]

@[simp] theorem PrefixOp.move_apply (op : PrefixOp) (s : Span) (e : Expression) :
    (op.apply s e).move f = op.apply (f.span s) (e.move f) := by
  simp [apply, Expression.move, moveExpressions]

@[simp] theorem InfixOp.move_apply (op : InfixOp) (left right : Expression) :
    (op.apply left right).move f = op.apply (left.move f) (right.move f) := by
  cases op <;> simp [apply, Expression.move, moveExpressions]

@[simp] theorem Waiting.move_apply (e : Expression) (w : Waiting) :
    (w.apply e).move f = (w.move f).apply (e.move f) := by
  cases w <;> simp [apply, move]

@[simp] theorem Waiting.operandLevel_move (w : Waiting) :
    (w.move f).operandLevel = w.operandLevel := by
  cases w <;> rfl

@[simp] theorem Waiting.followLevel_move (w : Waiting) :
    (w.move f).followLevel = w.followLevel := by
  cases w <;> rfl

@[simp] theorem Pending.move_value (p : Pending) : p.value.move f = (p.move f).value := by
  cases p <;> simp [value, move, Expression.move, moveExpressions]

@[simp] theorem Pending.move_openCall (p : Pending) :
    p.openCall.move f = (p.move f).openCall := by
  cases p <;> rfl

@[simp] theorem Pending.move_openIndex (p : Pending) :
    p.openIndex.move f = (p.move f).openIndex := by
  simp [openIndex, OpenCall.move, moveExpressions]

@[simp] theorem Slot.level_move (s : Slot) : (s.move f front).level = s.level := by
  cases s <;> rfl

@[simp] theorem Context.level_move (c : Context) : (c.move f front).level = c.level := by
  cases c <;> simp [level, move]

/-! ## One token -/

@[simp] theorem move_applyAll (e : Expression) (waiting : List Waiting) :
    (applyAll e waiting).move f = applyAll (e.move f) (waiting.map (·.move f)) := by
  induction waiting generalizing e with
  | nil => rfl
  | cons w rest ih =>
      rw [applyAll, List.foldl_cons, ← applyAll, ih, Waiting.move_apply]
      rfl

/-- The operators that bind tighter are the same in other places. -/
theorem applyTighter_move (level : Nat) (e : Expression) (follow : Nat) (waiting : List Waiting) :
    applyTighter level (e.move f) follow (waiting.map (·.move f)) =
      ((applyTighter level e follow waiting).1.move f,
        (applyTighter level e follow waiting).2.1.map (·.move f),
        (applyTighter level e follow waiting).2.2) := by
  induction waiting generalizing e follow with
  | nil => rfl
  | cons w rest ih =>
      simp only [List.map_cons, applyTighter, Waiting.operandLevel_move, Waiting.followLevel_move]
      split
      · rw [← Waiting.move_apply, ih]
      · rfl

/-- An expression is handed on in the same way in other places. -/
theorem Slot.deliver_move (e : Expression) (t : Token) (s : Slot) :
    (s.deliver e t).map (·.move f front) = (s.move f front).deliver (e.move f) (t.move f) := by
  cases s <;> simp only [deliver, move, Token.kind_move] <;> split <;>
    simp [State.move, Block.move, Opened.move, Declaration.move, Field.move, Argument.move,
      Statement.move, moveBlock]

/-- An expression is handed to its context in the same way in other places. -/
theorem Context.deliver_move (e : Expression) (t : Token) (c : Context) :
    (c.deliver e t).map (·.move f front) = (c.move f front).deliver (e.move f) (t.move f) := by
  cases c with
  | slot s => exact s.deliver_move e t
  | group opener waiting outer =>
      simp only [deliver, move, Token.kind_move]
      split <;> simp [State.move, Pending.move]
  | arguments call waiting outer =>
      -- The brackets decide which token closes the list, so they are brought to one form first.
      simp only [deliver, move, Token.kind_move,
        show (call.move f).brackets = call.brackets from rfl]
      by_cases hcomma : t.kind = .symbol .comma
      · simp [hcomma, State.move, move]
      · simp only [if_neg hcomma]
        by_cases hcloser : t.kind = .symbol call.brackets.closer
        · simp [hcloser, State.move, Pending.move]
        · simp [hcloser]

theorem neededLevel_move (waiting : List Waiting) (context : Context) :
    neededLevel (waiting.map (·.move f)) (context.move f front) = neededLevel waiting context := by
  cases waiting <;> simp [neededLevel]

/-- An empty argument list is closed in the same way in other places. -/
theorem closeEmpty_move (t : Token) (waiting : List Waiting) (context : Context) :
    (closeEmpty t waiting context).map (·.move f front) =
      closeEmpty (t.move f) (waiting.map (·.move f)) (context.move f front) := by
  cases context with
  | slot s => rfl
  | group opener outerWaiting outer => rfl
  | arguments call outerWaiting outer =>
      have harguments : (moveExpressions f call.arguments).isEmpty = call.arguments.isEmpty := by
        simp [moveExpressions_eq_map]
      simp only [closeEmpty, Context.move, OpenCall.move, Token.kind_move, List.isEmpty_map,
        harguments]
      split
      · simp [State.move, Pending.move, OpenCall.move]
      · rfl

/-- An operand begins in the same way in other places. -/
theorem stepOperand_move (waiting : List Waiting) (context : Context) (t : Token) :
    (stepOperand waiting context t).map (·.move f front) =
      stepOperand (waiting.map (·.move f)) (context.move f front) (t.move f) := by
  simp only [stepOperand, Token.kind_move]
  split
  · simp [State.move, Pending.move]
  · simp [State.move, Pending.move, Expression.move]
  · simp [State.move, Context.move]
  · split
    · rw [neededLevel_move]
      split <;> simp [State.move, Waiting.move]
    · exact closeEmpty_move t waiting context

/-- An operator goes on in the same way in other places. -/
theorem stepInfix_move (op : InfixOp) (e : Expression) (waiting : List Waiting)
    (context : Context) :
    (stepInfix op e waiting context).map (·.move f front) =
      stepInfix op (e.move f) (waiting.map (·.move f)) (context.move f front) := by
  simp only [stepInfix, applyTighter_move, Context.level_move]
  split <;> simp [State.move, Waiting.move]

/-- An operand goes on in the same way in other places. -/
theorem stepPending_move (p : Pending) (waiting : List Waiting) (context : Context) (t : Token) :
    (stepPending p waiting context t).map (·.move f front) =
      stepPending (p.move f) (waiting.map (·.move f)) (context.move f front) (t.move f) := by
  simp only [stepPending, Token.kind_move]
  split
  · simp [State.move, Context.move]
  · simp [State.move, Context.move]
  · simp [State.move]
  · split
    · rw [stepInfix_move, Pending.move_value]
    · rw [Context.deliver_move, move_applyAll, Pending.move_value]

/-- A block ends in the same way in other places. -/
theorem Block.close_move (t : Token) (b : Block) :
    (b.close t).move f front = (b.move f front).close (t.move f) := by
  cases b with
  | method header returns done =>
      simp [close, move, State.move, Header.move, Declaration.move, Method.move]
  | nested opened done outer =>
      cases opened <;>
        simp [close, move, Opened.move, State.move, Statement.move, moveBlock,
          moveAlternatives_eq_map, moveBlock_eq_map]

theorem Block.elif_move (b : Block) :
    b.elif.map (·.move f front) = (b.move f front).elif := by
  cases b with
  | method header returns done => rfl
  | nested opened done outer =>
      cases opened <;>
        simp [elif, move, Opened.move, State.move, Context.move, Slot.move,
          moveAlternatives_eq_map, moveBlock_eq_map]

theorem Block.otherwise_move (b : Block) :
    b.otherwise.map (·.move f front) = (b.move f front).otherwise := by
  cases b with
  | method header returns done => rfl
  | nested opened done outer =>
      cases opened <;>
        simp [otherwise, move, Opened.move, State.move, moveAlternatives_eq_map, moveBlock_eq_map]

/-- A statement begins in the same way in other places. -/
theorem stepStatements_move (b : Block) (t : Token) :
    (stepStatements b t).map (·.move f front) =
      stepStatements (b.move f front) (t.move f) := by
  simp only [stepStatements, Token.kind_move]
  split
  · rfl
  · rw [Option.map_some, Block.close_move]
  · exact b.elif_move
  · exact b.otherwise_move
  · rfl
  · rfl
  · simp [State.move, Statement.move]
  · simp [State.move, Statement.move]
  · rfl
  · exact stepOperand_move _ _ _

/-- A declaration begins in the same way in other places. -/
theorem stepDeclarations_move (e : Enclosing) (t : Token) :
    (stepDeclarations e t).map (·.move f front) =
      stepDeclarations (e.move f front) (t.move f) := by
  simp only [stepDeclarations, Token.kind_move]
  split
  · rfl
  · cases e <;>
      simp [Enclosing.close, Enclosing.move, State.move, Declaration.move,
        moveDeclarations_eq_map]
  · rfl
  · rfl
  · rfl
  · rfl

theorem stepHeader_move (h : Header) (t : Token) :
    (stepHeader h t).map (·.move f front) = stepHeader (h.move f front) (t.move f) := by
  simp only [stepHeader, Token.kind_move]
  split <;> rfl

theorem stepArgumentName_move (h : Header) (t : Token) :
    (stepArgumentName h t).map (·.move f front) =
      stepArgumentName (h.move f front) (t.move f) := by
  simp only [stepArgumentName, Token.kind_move]
  split <;> rfl

namespace State

/-- A parser goes on in the same way in other places. -/
theorem step_move (s : State) (t : Token) :
    (s.step t).map (·.move f front) = (s.move f front).step (t.move f) := by
  cases s with
  | declarations e => exact stepDeclarations_move e t
  | afterMethodName h =>
      simp only [step, move, Token.kind_move]
      split
      · rfl
      · exact stepHeader_move h t
  | firstArgument h =>
      simp only [step, move, Token.kind_move]
      split
      · rfl
      · exact stepArgumentName_move h t
  | argumentName h => exact stepArgumentName_move h t
  | afterArguments h => exact stepHeader_move h t
  | statements b => exact stepStatements_move b t
  | ret span b =>
      simp only [step, move, Token.kind_move]
      split
      · simp [Statement.move]
      · exact stepOperand_move _ _ _
  | operand waiting context => exact stepOperand_move _ _ _
  | pending p waiting context => exact stepPending_move _ _ _ _
  | _ =>
      simp only [step, move, Token.kind_move]
      split <;> rfl

/-- What is expected does not depend on places. -/
theorem expected_move (s : State) (k : Token.Kind) :
    (s.move f front).expected k = s.expected k := by
  cases s with
  | declarations e => cases e <;> rfl
  | pending p waiting context =>
      cases context with
      | slot slot => cases slot <;> rfl
      | group opener waiting outer => rfl
      | arguments call waiting outer => rfl
  | _ => rfl

/-- A token that cannot stand where it does is told in its place. -/
theorem diagnostic_move (s : State) (t : Token) :
    (s.move f front).diagnostic (t.move f) = (s.diagnostic t).move f := by
  rw [diagnostic, diagnostic, expected_move]
  rfl

theorem endLine_move (s : State) : (s.move f front).endLine = s.endLine.move f front := by
  cases s <;> rfl

end State

end Parser

/-! ## Programs -/

/-- A class with its body in other places, behind some declarations. It begins where it did. -/
def Class.behind (f : Motion) (front : List Declaration) (c : Class) : Class :=
  ⟨c.name, front ++ moveDeclarations f c.body, ⟨c.span.start, f.place c.span.stop⟩⟩

namespace Parser.State

variable {f : Motion} {front : List Declaration}

theorem module?_move (s : State) (fileEnd : Position) :
    (s.move f front).module? (f.place fileEnd) =
      (s.module? fileEnd).map (·.behind f front) := by
  cases s with
  | declarations e =>
      cases e with
      | module done => simp [move, Enclosing.move, module?, Class.behind, moveDeclarations_eq_map]
      | inClass opener name done outer => rfl
  | _ => rfl

/-- A program ends in the same way in other places. -/
theorem finish_move (s : State) (fileEnd : Position) :
    (s.move f front).finish (.endOfFile (f.place fileEnd)) =
      ((s.finish (.endOfFile fileEnd)).map (·.behind f front)).mapError (·.move f) := by
  have hmodule : (s.move f front).endLine.module? (f.place fileEnd) =
      (s.endLine.module? fileEnd).map (·.behind f front) := by
    rw [endLine_move, module?_move]
  have hdiagnostic : (s.move f front).endLine.diagnostic (.endOfFile (f.place fileEnd)) =
      (s.endLine.diagnostic (.endOfFile fileEnd)).move f := by
    rw [endLine_move]
    exact s.endLine.diagnostic_move (.endOfFile fileEnd)
  have hstop : ∀ p : Position, (Token.endOfFile p).span.stop = p := fun _ => rfl
  rw [finish, finish, hstop, hstop, hmodule, hdiagnostic]
  cases s.endLine.module? fileEnd <;> rfl

/-- Reading tokens in other places, behind declarations, gives what reading them gives, moved. -/
theorem runTokens_move (s : State) (fileEnd : Position) (ts : List Token) :
    (s.move f front).runTokens (f.place fileEnd) (ts.map (·.move f)) =
      ((s.runTokens fileEnd ts).map (·.behind f front)).mapError (·.move f) := by
  induction ts generalizing s with
  | nil => exact s.finish_move fileEnd
  | cons t rest ih =>
      rw [List.map_cons, runTokens, runTokens, ← step_move, diagnostic_move]
      cases s.step t with
      | some s' => exact ih s'
      | none => rfl

end Parser.State

end Bucket
