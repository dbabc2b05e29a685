/-
# The procedures of the parser

What the procedures for programs, blocks and expressions do. A construct is looked for at its first token,
and where that does not stand nothing is read. Each level of operators has a procedure of its own, which
calls the one for the next tighter level for its operands.
-/
import Bucket.Proofs.Descent.Script

namespace Bucket.Parser

namespace Script

/-! ## Expressions -/

/-- The operators between operands by their levels, with the tokens for them. -/
def operators : Nat → List (Token.Kind × InfixOp)
  | 1 => [(.symbol .equals, .assign)]
  | 2 => [(.keyword .orKw, .binary .or)]
  | 3 => [(.keyword .andKw, .binary .and)]
  | 4 => [(.symbol .doubleEquals, .binary .eq), (.symbol .bangEquals, .binary .ne)]
  | 5 => [(.symbol .greater, .binary .gt), (.symbol .greaterOrEqual, .binary .ge),
      (.symbol .lesser, .binary .lt), (.symbol .lesserOrEqual, .binary .le)]
  | 6 => [(.symbol .plus, .binary .add), (.symbol .minus, .binary .sub)]
  | 7 => [(.symbol .asterisk, .binary .mul), (.symbol .slash, .binary .div),
      (.symbol .percent, .binary .mod)]
  | 9 => [(.symbol .caret, .binary .pow)]
  | _ => []

/-- The operators in front of an operand, with the tokens for them. -/
def prefixOperators : List (Token.Kind × PrefixOp) :=
  [(.keyword .notKw, .not), (.symbol .plus, .positive), (.symbol .minus, .negative),
    (.symbol .asterisk, .dereference), (.symbol .ampersand, .addressOf)]

/-- An operand, and if there is an operator of a level behind it the right operand. -/
def infixOnce (level : Nat) (operand right : Script Expression) : Script Expression := do
  let left ← operand
  match ← operator (operators level) with
  | some op =>
      let right ← right
      return op.apply left right
  | none => return left

/-- One round of reading operators of a level with their right operands. They group to the left. -/
def infixRound (level : Nat) (operand : Script Expression) (again : Expression → Script Expression)
    (left : Expression) : Script Expression := do
  match ← operator (operators level) with
  | some op =>
      let right ← operand
      again (op.apply left right)
  | none => return left

/-- Assignments group to the right. -/
def expression : Script Expression := infixOnce 1 (perform .orExpr ()) (perform .expression ())

def orExpr : Script Expression := infixOnce 2 (perform .andExpr ()) (perform .orExpr ())

def andExpr : Script Expression := infixOnce 3 (perform .equalityExpr ()) (perform .andExpr ())

/-- Comparisons do not chain. -/
def equalityExpr : Script Expression :=
  infixOnce 4 (perform .comparisonExpr ()) (perform .comparisonExpr ())

def comparisonExpr : Script Expression :=
  infixOnce 5 (perform .additiveExpr ()) (perform .additiveExpr ())

def additiveExpr : Script Expression := do
  let left ← perform .multiplicativeExpr ()
  perform .additiveRound left

def additiveRound (left : Expression) : Script Expression :=
  infixRound 6 (perform .multiplicativeExpr ()) (perform .additiveRound ·) left

def multiplicativeExpr : Script Expression := do
  let left ← perform .unaryExpr ()
  perform .multiplicativeRound left

def multiplicativeRound (left : Expression) : Script Expression :=
  infixRound 7 (perform .unaryExpr ()) (perform .multiplicativeRound ·) left

def unaryExpr : Script Expression := do
  let opener ← current
  match ← operator prefixOperators with
  | some op =>
      let operand ← perform .unaryExpr ()
      return op.apply opener.span operand
  | none => perform .powerExpr ()

/-- The exponent of a power may begin with an operator of its own. -/
def powerExpr : Script Expression := infixOnce 9 (perform .postfixExpr ()) (perform .unaryExpr ())

def postfixExpr : Script Expression := do
  let value ← perform .primaryExpr ()
  perform .postfixRound value

/-- The arguments behind the name of a method. There may be none, and then the name ends the call. -/
def memberArguments (name : Span) : Script (List Expression × Span) := do
  match ← accept [.symbol .openParenthesis] with
  | some _ => perform .arguments (.round, true)
  | none => return ([], name)

def postfixRound (value : Expression) : Script Expression := do
  match ← accept [.symbol .period] with
  | some _ =>
      let (name, span) ← expectIdentifier .methodName
      let (arguments, stop) ← memberArguments span
      perform .postfixRound (.call value name arguments (value.span + stop))
  | none =>
    match ← accept [.symbol .openParenthesis] with
    | some _ =>
        let (arguments, stop) ← perform .arguments (.round, true)
        perform .postfixRound (.call value "__call__" arguments (value.span + stop))
    | none =>
      match ← accept [.symbol .openBracket] with
      | some _ =>
          let (arguments, stop) ← perform .arguments (.square, false)
          perform .postfixRound (.call value "__index__" arguments (value.span + stop))
      | none => return value

/-- A name, which is called on the object itself if there are arguments behind it. -/
def named (name : String) (span : Span) : Script Expression := do
  match ← accept [.symbol .openParenthesis] with
  | some _ =>
      let (arguments, stop) ← perform .arguments (.round, true)
      return .call (.identifier Expression.selfName span) name arguments (span + stop)
  | none => return .identifier name span

def primaryExpr : Script Expression := do
  match ← accept [.symbol .openParenthesis] with
  | some opener =>
      let inner ← perform .expression ()
      let closer ← expectKind (.symbol .closeParenthesis)
      return inner.withSpan (opener + closer)
  | none =>
      let t ← current
      match t.kind with
      | .identifier name =>
          advance
          named name t.span
      | .literal value =>
          advance
          return .literal value t.span
      | _ => expected .expression

/-- The arguments of a call up to what closes them. -/
def closedArguments (brackets : Brackets) : Script (List Expression × Span) := do
  let arguments ← perform .argumentsRound []
  let stop ← expectKind (.symbol brackets.closer)
  return (arguments, stop)

def arguments (brackets : Brackets) (mayBeEmpty : Bool) : Script (List Expression × Span) := do
  if mayBeEmpty then
    match ← accept [.symbol brackets.closer] with
    | some stop => return ([], stop)
    | none => closedArguments brackets
  else
    closedArguments brackets

def argumentsRound (before : List Expression) : Script (List Expression) := do
  let argument ← perform .expression ()
  match ← accept [.symbol .comma] with
  | some _ => perform .argumentsRound (before ++ [argument])
  | none => return before ++ [argument]

/-! ## Statements -/

/-- Whether a block of statements is over where a token stands. -/
def endsBlock (t : Token) : Bool :=
  t.isEndOfFile || t.kind == .keyword .endKw || t.kind == .keyword .elifKw ||
    t.kind == .keyword .elseKw

def block : Script (List Statement) := perform .blockRound []

def blockRound (before : List Statement) : Script (List Statement) := do
  let t ← current
  if endsBlock t then
    return before
  else
    match ← accept [.symbol .newline] with
    | some _ => perform .blockRound before
    | none =>
        let s ← perform .statement ()
        perform .blockRound (before ++ [s])

/-- What is given back, if something is. -/
def returned (keyword : Span) : Script Statement := do
  let t ← current
  if t.kind = .symbol .newline then
    return .ret none keyword
  else
    let value ← perform .expression ()
    return .ret (some value) (keyword + value.span)

/-- A statement that is over at the end of its line. -/
def simpleStatement : Script Statement := do
  match ← accept [.keyword .breakKw] with
  | some span => return .leave span
  | none =>
    match ← accept [.keyword .cycleKw] with
    | some span => return .cycle span
    | none =>
      match ← accept [.keyword .retKw] with
      | some span => returned span
      | none =>
          let value ← perform .expression ()
          return .expression value value.span

def statement : Script Statement := do
  match ← perform .ifStmt () with
  | some s => return s
  | none =>
    match ← perform .loopStmt () with
    | some s => return s
    | none =>
        let s ← simpleStatement
        let _ ← expectKind (.symbol .newline)
        return s

/-- The block for when no condition holds. -/
def otherwise : Script (List Statement) := do
  match ← accept [.keyword .elseKw] with
  | some _ =>
      let _ ← expectKind (.symbol .newline)
      perform .block ()
  | none => return []

def ifStmt : Script (Option Statement) := do
  match ← accept [.keyword .ifKw] with
  | some opener =>
      let condition ← perform .expression ()
      let _ ← expectKind (.symbol .newline)
      let body ← perform .block ()
      let alternatives ← perform .elifRound []
      let otherwise ← otherwise
      let closer ← expectKind (.keyword .endKw)
      return some (.conditional condition body alternatives otherwise (opener + closer))
  | none => return none

def elifRound (before : List (Expression × List Statement)) :
    Script (List (Expression × List Statement)) := do
  match ← accept [.keyword .elifKw] with
  | some _ =>
      let condition ← perform .expression ()
      let _ ← expectKind (.symbol .newline)
      let body ← perform .block ()
      perform .elifRound (before ++ [(condition, body)])
  | none => return before

def loopStmt : Script (Option Statement) := do
  match ← accept [.keyword .doKw] with
  | some opener =>
      let _ ← expectKind (.symbol .newline)
      let body ← perform .block ()
      let closer ← expectKind (.keyword .endKw)
      let _ ← expectKind (.symbol .newline)
      return some (.loop body (opener + closer))
  | none => return none

/-! ## Declarations -/

def program : Script Class := do
  let body ← perform .programRound []
  let t ← current
  return ⟨Class.moduleName, body, ⟨.first, t.span.stop⟩⟩

def programRound (before : List Declaration) : Script (List Declaration) := do
  let t ← current
  if t.isEndOfFile then
    return before
  else
    match ← accept [.symbol .newline] with
    | some _ => perform .programRound before
    | none =>
      match ← perform .globalStatement () with
      | some d => perform .programRound (before ++ [d])
      | none => expected .declarationOrEndOfFile

def globalStatement : Script (Option Declaration) := do
  match ← perform .classDef () with
  | some c => return some c.toDeclaration
  | none =>
    match ← perform .methodDef () with
    | some m => return some (.method m)
    | none =>
      match ← perform .fieldDecl () with
      | some f => return some (.field f)
      | none => return none

def classDef : Script (Option Class) := do
  match ← accept [.keyword .classKw] with
  | some opener =>
      let (name, _) ← expectIdentifier .className
      let _ ← expectKind (.symbol .newline)
      let (body, closer) ← perform .classRound []
      let _ ← expectEndOfLine
      return some ⟨name, body, opener + closer⟩
  | none => return none

def classRound (before : List Declaration) : Script (List Declaration × Span) := do
  match ← accept [.keyword .endKw] with
  | some closer => return (before, closer)
  | none =>
    match ← accept [.symbol .newline] with
    | some _ => perform .classRound before
    | none =>
      match ← perform .globalStatement () with
      | some d => perform .classRound (before ++ [d])
      | none => expected .declarationOrEnd

/-- The arguments in the first line of a method, if there are parentheses. -/
def parameters : Script (List Argument) := do
  match ← accept [.symbol .openParenthesis] with
  | some _ =>
    match ← accept [.symbol .closeParenthesis] with
    | some _ => return []
    | none =>
        let arguments ← perform .argumentRound []
        let _ ← expectKind (.symbol .closeParenthesis)
        return arguments
  | none => return []

/-- What a method gives back, if that is told. -/
def returnType : Script (Option Expression) := do
  match ← accept [.symbol .colon] with
  | some _ =>
      let type ← perform .postfixExpr ()
      return some type
  | none => return none

def methodDef : Script (Option Method) := do
  match ← accept [.keyword .methodKw] with
  | some opener =>
      let (name, _) ← expectIdentifier .methodName
      let arguments ← parameters
      let returns ← returnType
      let _ ← expectKind (.symbol .newline)
      let body ← perform .block ()
      let closer ← expectKind (.keyword .endKw)
      let _ ← expectEndOfLine
      return some ⟨name, arguments, returns, body, opener + closer⟩
  | none => return none

def argumentRound (before : List Argument) : Script (List Argument) := do
  let argument ← perform .argument ()
  match ← accept [.symbol .comma] with
  | some _ => perform .argumentRound (before ++ [argument])
  | none => return before ++ [argument]

def argument : Script Argument := do
  let (name, span) ← expectIdentifier .argumentName
  let _ ← expectKind (.symbol .colon)
  let type ← perform .postfixExpr ()
  return ⟨name, type, span + type.span⟩

def fieldDecl : Script (Option Field) := do
  match ← identifier with
  | some (name, span) =>
      let _ ← expectKind (.symbol .colon)
      let type ← perform .expression ()
      let _ ← expectKind (.symbol .newline)
      return some ⟨name, type, span + type.span⟩
  | none => return none

end Script

/-- What a procedure does with its input. -/
def Procedure.script : (p : Procedure) → p.Input → Script p.Output
  | program, _ => Script.program
  | programRound, before => Script.programRound before
  | globalStatement, _ => Script.globalStatement
  | classDef, _ => Script.classDef
  | classRound, before => Script.classRound before
  | methodDef, _ => Script.methodDef
  | argumentRound, before => Script.argumentRound before
  | argument, _ => Script.argument
  | fieldDecl, _ => Script.fieldDecl
  | block, _ => Script.block
  | blockRound, before => Script.blockRound before
  | statement, _ => Script.statement
  | ifStmt, _ => Script.ifStmt
  | elifRound, before => Script.elifRound before
  | loopStmt, _ => Script.loopStmt
  | expression, _ => Script.expression
  | orExpr, _ => Script.orExpr
  | andExpr, _ => Script.andExpr
  | equalityExpr, _ => Script.equalityExpr
  | comparisonExpr, _ => Script.comparisonExpr
  | additiveExpr, _ => Script.additiveExpr
  | additiveRound, left => Script.additiveRound left
  | multiplicativeExpr, _ => Script.multiplicativeExpr
  | multiplicativeRound, left => Script.multiplicativeRound left
  | unaryExpr, _ => Script.unaryExpr
  | powerExpr, _ => Script.powerExpr
  | postfixExpr, _ => Script.postfixExpr
  | postfixRound, value => Script.postfixRound value
  | primaryExpr, _ => Script.primaryExpr
  | arguments, (brackets, mayBeEmpty) => Script.arguments brackets mayBeEmpty
  | argumentsRound, before => Script.argumentsRound before

end Bucket.Parser
