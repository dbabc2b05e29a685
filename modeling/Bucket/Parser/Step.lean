/-
# One token

How a parser goes on when it reads a token. A token that cannot stand where it does stops the parser,
and then there is one thing that could have been there to tell about.
-/
import Bucket.Diagnostic
import Bucket.Parser.Expectation
import Bucket.Parser.State

namespace Bucket.Parser

/-! ## Complete expressions -/

/-- Hands a complete expression, and the token behind it, to what the expression is for. -/
def Slot.deliver (e : Expression) (t : Token) : Slot → Option State
  | field name span outer =>
      match t.kind with
      | .symbol .newline => some (.declarations (outer.add (.field ⟨name, e, span + e.span⟩)))
      | _ => none
  | argument name span header =>
      match t.kind with
      | .symbol .comma => some (.argumentName (header.add ⟨name, e, span + e.span⟩))
      | .symbol .closeParenthesis => some (.afterArguments (header.add ⟨name, e, span + e.span⟩))
      | _ => none
  | returns header =>
      match t.kind with
      | .symbol .newline => some (.statements (.method header (some e) []))
      | _ => none
  | ifCondition opener block =>
      match t.kind with
      | .symbol .newline => some (.statements (.nested (.thenPart opener e) [] block))
      | _ => none
  | elifCondition opener condition body alternatives block =>
      match t.kind with
      | .symbol .newline =>
          some (.statements (.nested (.elifPart opener condition body alternatives e) [] block))
      | _ => none
  | ret span block =>
      match t.kind with
      | .symbol .newline => some (.statements (block.add (.ret (some e) (span + e.span))))
      | _ => none
  | statement block =>
      match t.kind with
      | .symbol .newline => some (.statements (block.add (.expression e e.span)))
      | _ => none

/-- Hands a complete expression, and the token behind it, to its context. -/
def Context.deliver (e : Expression) (t : Token) : Context → Option State
  | slot s => s.deliver e t
  | group opener waiting outer =>
      match t.kind with
      | .symbol .closeParenthesis =>
          some (.pending (.whole (e.withSpan (opener + t.span))) waiting outer)
      | _ => none
  | arguments call waiting outer =>
      if t.kind = .symbol .comma then some (.operand [] (arguments (call.add e) waiting outer))
      else if t.kind = .symbol call.brackets.closer then
        some (.pending (.whole ((call.add e).close t.span)) waiting outer)
      else none

/-- What a context expects behind a complete expression. -/
def Context.expected : Context → Expectation
  | slot (.argument _ _ _) => .symbol .closeParenthesis
  | slot _ => .symbol .newline
  | group _ _ _ => .symbol .closeParenthesis
  | arguments call _ _ => .symbol call.brackets.closer

/-! ## Operands and operators -/

/-- Applies all operators that wait, from the innermost outward. -/
def applyAll (e : Expression) (waiting : List Waiting) : Expression :=
  waiting.foldl (fun e w => w.apply e) e

/-- Applies the operators that bind tighter than one of level `level` on their right. What remains
is the operand for that one, the operators that still wait outside it, and the highest level that
may follow the operand. -/
def applyTighter (level : Nat) (e : Expression) (follow : Nat) :
    List Waiting → Expression × List Waiting × Nat
  | [] => (e, [], follow)
  | w :: waiting =>
      if level < w.operandLevel then applyTighter level (w.apply e) w.followLevel waiting
      else (e, w :: waiting, follow)

/-- The level that the next operand needs. -/
def neededLevel (waiting : List Waiting) (context : Context) : Nat :=
  match waiting with
  | [] => context.level
  | w :: _ => w.operandLevel

/-- Closes an argument list that holds nothing, which round brackets may. -/
def closeEmpty (t : Token) (waiting : List Waiting) : Context → Option State
  | .arguments call outerWaiting outer =>
      if waiting.isEmpty ∧ call.arguments.isEmpty ∧ call.brackets = .round ∧
          t.kind = .symbol .closeParenthesis then
        some (.pending (.whole (call.close t.span)) outerWaiting outer)
      else none
  | _ => none

/-- Reads a token where an operand begins. -/
def stepOperand (waiting : List Waiting) (context : Context) (t : Token) : Option State :=
  match t.kind with
  | .identifier name => some (.pending (.name name t.span) waiting context)
  | .literal value => some (.pending (.whole (.literal value t.span)) waiting context)
  | .symbol .openParenthesis => some (.operand [] (.group t.span waiting context))
  | k =>
      match PrefixOp.ofKind? k with
      | some op =>
          if neededLevel waiting context ≤ PrefixOp.level then
            some (.operand (.prefixOp op t.span :: waiting) context)
          else none
      | none => closeEmpty t waiting context

/-- Reads an operator behind an operand. -/
def stepInfix (op : InfixOp) (e : Expression) (waiting : List Waiting) (context : Context) :
    Option State :=
  let (left, outer, follow) := applyTighter op.level e 9 waiting
  if context.level ≤ op.level ∧ op.level ≤ follow then
    some (.operand (.infixOp left op :: outer) context)
  else none

/-- Reads a token behind an operand. -/
def stepPending (p : Pending) (waiting : List Waiting) (context : Context) (t : Token) :
    Option State :=
  match t.kind with
  | .symbol .openParenthesis => some (.operand [] (.arguments p.openCall waiting context))
  | .symbol .openBracket => some (.operand [] (.arguments p.openIndex waiting context))
  | .symbol .period => some (.memberName p.value waiting context)
  | k =>
      match InfixOp.ofKind? k with
      | some op => stepInfix op p.value waiting context
      | none => context.deliver (applyAll p.value waiting) t

/-! ## Statements -/

/-- Ends the innermost block at its `end`. A loop needs a line end behind it. -/
def Block.close (t : Token) : Block → State
  | method header returns done =>
      .definitionLine (header.outer.add
        (.method ⟨header.name, header.arguments, returns, done, header.opener + t.span⟩))
  | nested (.thenPart opener condition) done outer =>
      .statements (outer.add (.conditional condition done [] [] (opener + t.span)))
  | nested (.elifPart opener condition body alternatives current) done outer =>
      .statements (outer.add
        (.conditional condition body (alternatives ++ [(current, done)]) [] (opener + t.span)))
  | nested (.elsePart opener condition body alternatives) done outer =>
      .statements (outer.add (.conditional condition body alternatives done (opener + t.span)))
  | nested (.loop opener) done outer =>
      .statementLine (outer.add (.loop done (opener + t.span)))

/-- Goes on to a further condition, from a block that has one. -/
def Block.elif : Block → Option State
  | nested (.thenPart opener condition) done outer =>
      some (.operand [] (.slot (.elifCondition opener condition done [] outer)))
  | nested (.elifPart opener condition body alternatives current) done outer =>
      some (.operand [] (.slot
        (.elifCondition opener condition body (alternatives ++ [(current, done)]) outer)))
  | _ => none

/-- Goes on to the block for when no condition holds, from a block that has a condition. -/
def Block.otherwise : Block → Option State
  | nested (.thenPart opener condition) done outer =>
      some (.statementLine (.nested (.elsePart opener condition done []) [] outer))
  | nested (.elifPart opener condition body alternatives current) done outer =>
      some (.statementLine
        (.nested (.elsePart opener condition body (alternatives ++ [(current, done)])) [] outer))
  | _ => none

/-- Reads a token where a statement begins or its block ends. -/
def stepStatements (b : Block) (t : Token) : Option State :=
  match t.kind with
  | .symbol .newline => some (.statements b)
  | .keyword .endKw => some (b.close t)
  | .keyword .elifKw => b.elif
  | .keyword .elseKw => b.otherwise
  | .keyword .ifKw => some (.operand [] (.slot (.ifCondition t.span b)))
  | .keyword .doKw => some (.statementLine (.nested (.loop t.span) [] b))
  | .keyword .breakKw => some (.statementLine (b.add (.leave t.span)))
  | .keyword .cycleKw => some (.statementLine (b.add (.cycle t.span)))
  | .keyword .retKw => some (.ret t.span b)
  | _ => stepOperand [] (.slot (.statement b)) t

/-! ## Declarations -/

/-- Ends the innermost class at its `end`. A module has none. -/
def Enclosing.close (t : Token) : Enclosing → Option State
  | module _ => none
  | inClass opener name done outer =>
      some (.definitionLine (outer.add (.classDef name done (opener + t.span))))

/-- What is expected in a class body. -/
def Enclosing.expected : Enclosing → Expectation
  | module _ => .declarationOrEndOfFile
  | inClass _ _ _ _ => .declarationOrEnd

/-- Reads a token where a declaration begins or the class body ends. -/
def stepDeclarations (e : Enclosing) (t : Token) : Option State :=
  match t.kind with
  | .symbol .newline => some (.declarations e)
  | .keyword .endKw => e.close t
  | .keyword .classKw => some (.className t.span e)
  | .keyword .methodKw => some (.methodName t.span e)
  | .identifier name => some (.fieldColon name t.span e)
  | _ => none

/-- Reads a token in the first line of a method, where arguments may have been read already. -/
def stepHeader (h : Header) (t : Token) : Option State :=
  match t.kind with
  | .symbol .colon => some (.operand [] (.slot (.returns h)))
  | .symbol .newline => some (.statements (.method h none []))
  | _ => none

/-- Reads the name of an argument. -/
def stepArgumentName (h : Header) (t : Token) : Option State :=
  match t.kind with
  | .identifier name => some (.argumentColon name t.span h)
  | _ => none

/-! ## States -/

namespace State

/-- Reads a token that is not the end of the file, if it can stand here. -/
def step (s : State) (t : Token) : Option State :=
  match s with
  | declarations e => stepDeclarations e t
  | className opener outer =>
      match t.kind with
      | .identifier name => some (classLine opener name outer)
      | _ => none
  | classLine opener name outer =>
      match t.kind with
      | .symbol .newline => some (declarations (.inClass opener name [] outer))
      | _ => none
  | definitionLine outer =>
      match t.kind with
      | .symbol .newline => some (declarations outer)
      | _ => none
  | fieldColon name span outer =>
      match t.kind with
      | .symbol .colon => some (operand [] (.slot (.field name span outer)))
      | _ => none
  | methodName opener outer =>
      match t.kind with
      | .identifier name => some (afterMethodName ⟨opener, name, [], outer⟩)
      | _ => none
  | afterMethodName h =>
      match t.kind with
      | .symbol .openParenthesis => some (firstArgument h)
      | _ => stepHeader h t
  | firstArgument h =>
      match t.kind with
      | .symbol .closeParenthesis => some (afterArguments h)
      | _ => stepArgumentName h t
  | argumentName h => stepArgumentName h t
  | argumentColon name span h =>
      match t.kind with
      | .symbol .colon => some (operand [] (.slot (.argument name span h)))
      | _ => none
  | afterArguments h => stepHeader h t
  | statements b => stepStatements b t
  | statementLine b =>
      match t.kind with
      | .symbol .newline => some (statements b)
      | _ => none
  | ret span b =>
      match t.kind with
      | .symbol .newline => some (statements (b.add (.ret none span)))
      | _ => stepOperand [] (.slot (.ret span b)) t
  | operand waiting context => stepOperand waiting context t
  | memberName receiver waiting context =>
      match t.kind with
      | .identifier name => some (pending (.member receiver name t.span) waiting context)
      | _ => none
  | pending p waiting context => stepPending p waiting context t

/-- What is expected in place of a token that cannot stand here. -/
def expected (k : Token.Kind) : State → Expectation
  | declarations e => e.expected
  | className _ _ => .className
  | classLine _ _ _ => .symbol .newline
  | definitionLine _ => .lineEnd
  | fieldColon _ _ _ => .symbol .colon
  | methodName _ _ => .methodName
  | afterMethodName _ => .symbol .newline
  | firstArgument _ => .argumentName
  | argumentName _ => .argumentName
  | argumentColon _ _ _ => .symbol .colon
  | afterArguments _ => .symbol .newline
  | statements _ =>
      match k with
      | .keyword .elifKw | .keyword .elseKw | .symbol .endOfFile => .keyword .endKw
      | _ => .expression
  | statementLine _ => .symbol .newline
  | ret _ _ => .expression
  | operand _ _ => .expression
  | memberName _ _ _ => .methodName
  | pending _ _ context => context.expected

/-- The state when the file ends, which ends the line of a definition. -/
def endLine : State → State
  | definitionLine outer => declarations outer
  | s => s

/-- The module that was read, if the program may end here. -/
def module? (fileEnd : Position) : State → Option Class
  | declarations (.module done) => some ⟨Class.moduleName, done, ⟨.first, fileEnd⟩⟩
  | _ => none

/-- The diagnostic for a token that cannot stand here. -/
def diagnostic (s : State) (t : Token) : Diagnostic :=
  .syntactic (s.expected t.kind).text t.kind.describe t.span.start

/-- Ends the program at the end of the file. -/
def finish (s : State) (t : Token) : Except Diagnostic Class :=
  match s.endLine.module? t.span.stop with
  | some c => .ok c
  | none => .error (s.endLine.diagnostic t)

end State

end Bucket.Parser
