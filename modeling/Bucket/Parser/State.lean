/-
# The state of a parser

While a program is read, a parser keeps what it has read so far and what that is for. Definitions lie
in each other, and so do blocks of statements and expressions in parentheses, so each of these is a
chain that leads from the innermost construct outward. What is complete is held as trees.
-/
import Bucket.Parser.Operator

namespace Bucket.Parser

/-! ## Definitions -/

/-- The class bodies around a place, each with the declarations it has so far. -/
inductive Enclosing where
  | module (done : List Declaration)
  | inClass (opener : Span) (name : String) (done : List Declaration) (outer : Enclosing)

/-- Adds a declaration to the innermost class body. -/
def Enclosing.add (d : Declaration) : Enclosing → Enclosing
  | module done => module (done ++ [d])
  | inClass opener name done outer => inClass opener name (done ++ [d]) outer

/-- The first line of a method, as far as it was read. -/
structure Header where
  opener : Span
  name : String
  arguments : List Argument
  outer : Enclosing

/-- Adds an argument. -/
def Header.add (a : Argument) (h : Header) : Header := { h with arguments := h.arguments ++ [a] }

/-! ## Blocks of statements -/

/-- A statement whose block is being read. What was read of it before that block is kept. -/
inductive Opened where
  | thenPart (opener : Span) (condition : Expression)
  | elifPart (opener : Span) (condition : Expression) (body : List Statement)
      (alternatives : List (Expression × List Statement)) (current : Expression)
  | elsePart (opener : Span) (condition : Expression) (body : List Statement)
      (alternatives : List (Expression × List Statement))
  | loop (opener : Span)

/-- The blocks around a place, each with the statements it has so far. The outermost one is the body
of a method. -/
inductive Block where
  | method (header : Header) (returns : Option Expression) (done : List Statement)
  | nested (opened : Opened) (done : List Statement) (outer : Block)

/-- Adds a statement to the innermost block. -/
def Block.add (s : Statement) : Block → Block
  | method header returns done => method header returns (done ++ [s])
  | nested opened done outer => nested opened (done ++ [s]) outer

/-! ## Expressions -/

/-- What an expression that lies in no other one is for. -/
inductive Slot where
  | field (name : String) (span : Span) (outer : Enclosing)
  | argument (name : String) (span : Span) (header : Header)
  | returns (header : Header)
  | ifCondition (opener : Span) (block : Block)
  | elifCondition (opener : Span) (condition : Expression) (body : List Statement)
      (alternatives : List (Expression × List Statement)) (block : Block)
  | ret (span : Span) (block : Block)
  | statement (block : Block)

/-- The level that an expression needs. In the first line of a method operators need parentheses. -/
def Slot.level : Slot → Nat
  | argument _ _ _ => 10
  | returns _ => 10
  | _ => 1

/-- The two kinds of brackets around the arguments of a call. -/
inductive Brackets where
  | round
  | square
  deriving DecidableEq

/-- The symbol that closes brackets. -/
def Brackets.closer : Brackets → Symbol
  | round => .closeParenthesis
  | square => .closeBracket

/-- A call whose arguments are being read. -/
structure OpenCall where
  brackets : Brackets
  receiver : Expression
  method : String
  arguments : List Expression

/-- Adds an argument. -/
def OpenCall.add (e : Expression) (c : OpenCall) : OpenCall :=
  { c with arguments := c.arguments ++ [e] }

/-- The call, once its brackets are closed. -/
def OpenCall.close (closer : Span) (c : OpenCall) : Expression :=
  .call c.receiver c.method c.arguments (c.receiver.span + closer)

/-- An operator that waits for its operand, or for the right one. -/
inductive Waiting where
  | prefixOp (op : PrefixOp) (opener : Span)
  | infixOp (left : Expression) (op : InfixOp)

namespace Waiting

/-- The level that the operand needs. -/
def operandLevel : Waiting → Nat
  | prefixOp _ _ => PrefixOp.level
  | infixOp _ op => op.operandLevel

/-- The highest level of an operator that may take the application as its left operand. -/
def followLevel : Waiting → Nat
  | prefixOp _ _ => PrefixOp.level
  | infixOp _ op => op.followLevel

/-- The operator applied to its operand. -/
def apply (operand : Expression) : Waiting → Expression
  | prefixOp op opener => op.apply opener operand
  | infixOp left op => op.apply left operand

end Waiting

/-- What an expression is part of, from the innermost brackets outward. The operators that wait
outside each pair of brackets are kept with it, the innermost first. -/
inductive Context where
  | slot (slot : Slot)
  | group (opener : Span) (waiting : List Waiting) (outer : Context)
  | arguments (call : OpenCall) (waiting : List Waiting) (outer : Context)

/-- The level that an expression needs in its context. -/
def Context.level : Context → Nat
  | slot s => s.level
  | _ => 1

/-- An operand that was read but may still go on. A name may turn out to be called, and so may a
member. -/
inductive Pending where
  | name (name : String) (span : Span)
  | member (receiver : Expression) (name : String) (nameSpan : Span)
  | whole (value : Expression)

namespace Pending

/-- The operand, if it does not go on. A member without arguments is a call. -/
def value : Pending → Expression
  | name n s => .identifier n s
  | member receiver n s => .call receiver n [] (receiver.span + s)
  | whole e => e

/-- The call that parentheses behind an operand open. A bare name is called on the object itself,
and a value that is no name is called by its method for that. -/
def openCall : Pending → OpenCall
  | name n s => ⟨.round, .identifier Expression.selfName s, n, []⟩
  | member receiver n _ => ⟨.round, receiver, n, []⟩
  | whole e => ⟨.round, e, "__call__", []⟩

/-- The call that square brackets behind an operand open. -/
def openIndex (p : Pending) : OpenCall := ⟨.square, p.value, "__index__", []⟩

end Pending

/-! ## States -/

/-- What a parser has read, by what it reads next. -/
inductive State where
  | declarations (enclosing : Enclosing)
  | className (opener : Span) (outer : Enclosing)
  | classLine (opener : Span) (name : String) (outer : Enclosing)
  | definitionLine (outer : Enclosing)
  | fieldColon (name : String) (span : Span) (outer : Enclosing)
  | methodName (opener : Span) (outer : Enclosing)
  | afterMethodName (header : Header)
  | firstArgument (header : Header)
  | argumentName (header : Header)
  | argumentColon (name : String) (span : Span) (header : Header)
  | afterArguments (header : Header)
  | statements (block : Block)
  | statementLine (block : Block)
  | ret (span : Span) (block : Block)
  | operand (waiting : List Waiting) (context : Context)
  | memberName (receiver : Expression) (waiting : List Waiting) (context : Context)
  | pending (operand : Pending) (waiting : List Waiting) (context : Context)

/-- The state at the beginning of a program. -/
def State.initial : State := .declarations (.module [])

instance : Inhabited State := ⟨.initial⟩

end Bucket.Parser
