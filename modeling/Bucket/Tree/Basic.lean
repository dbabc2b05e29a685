/-
# Programs as trees

A program is a class whose body holds declarations: classes, methods and fields. Methods hold
statements, and statements hold expressions. Operators are calls of methods with names of their own,
so there are only four forms of expressions.
-/
import Bucket.Token.Basic

namespace Bucket

/-! ## Expressions -/

/-- An expression and the stretch of text it was written in. -/
inductive Expression where
  | identifier (name : String) (span : Span)
  | literal (value : Literal) (span : Span)
  | call (receiver : Expression) (method : String) (arguments : List Expression) (span : Span)
  | assignment (left right : Expression) (span : Span)

namespace Expression

instance : Inhabited Expression := ⟨.identifier "" default⟩

/-- The name for the object that a method is called on, inside that method. -/
def selfName : String := "__self__"

/-- Where an expression stands. -/
def span : Expression → Span
  | identifier _ s => s
  | literal _ s => s
  | call _ _ _ s => s
  | assignment _ _ s => s

/-- The same expression in another place. -/
def withSpan (s : Span) : Expression → Expression
  | identifier name _ => identifier name s
  | literal value _ => literal value s
  | call receiver method arguments _ => call receiver method arguments s
  | assignment left right _ => assignment left right s

@[simp] theorem span_withSpan (s : Span) (e : Expression) : (e.withSpan s).span = s := by
  cases e <;> rfl

/-- The name that an expression is, if it is nothing more than a name. -/
def name? : Expression → Option String
  | identifier name _ => some name
  | _ => none

end Expression

/-! ## Statements -/

/-- A statement and the stretch of text it was written in. A conditional has a condition with its
body, further conditions with theirs, and the statements for when none of them holds. A loop ends
only from inside. -/
inductive Statement where
  | conditional (condition : Expression) (body : List Statement)
      (alternatives : List (Expression × List Statement)) (otherwise : List Statement)
      (span : Span)
  | loop (body : List Statement) (span : Span)
  | leave (span : Span)
  | cycle (span : Span)
  | ret (value : Option Expression) (span : Span)
  | expression (value : Expression) (span : Span)

namespace Statement

instance : Inhabited Statement := ⟨.leave default⟩

/-- Where a statement stands. -/
def span : Statement → Span
  | conditional _ _ _ _ s => s
  | loop _ s => s
  | leave s => s
  | cycle s => s
  | ret _ s => s
  | expression _ s => s

end Statement

/-! ## Declarations -/

/-- An argument of a method. Its type is an expression. -/
structure Argument where
  name : String
  type : Expression
  span : Span

/-- A method. -/
structure Method where
  name : String
  arguments : List Argument
  returns : Option Expression
  body : List Statement
  span : Span

/-- A field. Its type is an expression. -/
structure Field where
  name : String
  type : Expression
  span : Span

/-- What a class holds. -/
inductive Declaration where
  | classDef (name : String) (body : List Declaration) (span : Span)
  | method (method : Method)
  | field (field : Field)

/-- A class. -/
structure Class where
  name : String
  body : List Declaration
  span : Span

namespace Declaration

/-- The name that is declared. -/
def name : Declaration → String
  | classDef name _ _ => name
  | method m => m.name
  | field f => f.name

/-- Where a declaration stands. -/
def span : Declaration → Span
  | classDef _ _ s => s
  | method m => m.span
  | field f => f.span

/-- The class that is declared, if it is one. -/
def class? : Declaration → Option Class
  | classDef name body s => some ⟨name, body, s⟩
  | _ => none

end Declaration

namespace Class

/-- The name of the class that holds all that a source declares. -/
def moduleName : String := "__module__"

/-- Whether a class has the name of a whole source. -/
def isModule (c : Class) : Bool := c.name == moduleName

/-- The declaration of a class inside another one. -/
def toDeclaration (c : Class) : Declaration := .classDef c.name c.body c.span

/-- The class reached by going from body to body, each time to the class declared at an index. -/
def nested? (c : Class) : List Nat → Option Class
  | [] => some c
  | i :: path => do
      let declaration ← c.body[i]?
      let inner ← declaration.class?
      inner.nested? path

end Class

end Bucket
