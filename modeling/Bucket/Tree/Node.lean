/-
# Nodes of a tree

A node is any part of a tree that stands for itself: a class, a method, a field, a statement or an
expression. What is only known to be a node can be narrowed to one of these, or to one form of
statement or expression.
-/
import Bucket.Tree.Basic

namespace Bucket

/-- Any node of a tree. -/
inductive Node where
  | ofClass (value : Class)
  | ofMethod (value : Method)
  | ofField (value : Field)
  | ofStatement (value : Statement)
  | ofExpression (value : Expression)

/-! ## Forms of statements and expressions -/

/-- A conditional statement, taken apart. -/
structure Conditional where
  condition : Expression
  body : List Statement
  alternatives : List (Expression × List Statement)
  otherwise : List Statement

/-- A loop, taken apart. -/
structure Loop where
  body : List Statement

/-- A call, taken apart. -/
structure Call where
  receiver : Expression
  method : String
  arguments : List Expression

/-- An assignment, taken apart. -/
structure Assignment where
  left : Expression
  right : Expression

namespace Node

/-! ## Narrowing -/

/-- The class that a node is, if it is one. -/
def class? : Node → Option Class
  | ofClass c => some c
  | _ => none

/-- The method that a node is, if it is one. -/
def method? : Node → Option Method
  | ofMethod m => some m
  | _ => none

/-- The field that a node is, if it is one. -/
def field? : Node → Option Field
  | ofField f => some f
  | _ => none

/-- The statement that a node is, if it is one. -/
def statement? : Node → Option Statement
  | ofStatement s => some s
  | _ => none

/-- The expression that a node is, if it is one. -/
def expression? : Node → Option Expression
  | ofExpression e => some e
  | _ => none

/-- The conditional that a node is, if it is one. -/
def conditional? : Node → Option Conditional
  | ofStatement (.conditional condition body alternatives otherwise _) =>
      some ⟨condition, body, alternatives, otherwise⟩
  | _ => none

/-- The loop that a node is, if it is one. -/
def loop? : Node → Option Loop
  | ofStatement (.loop body _) => some ⟨body⟩
  | _ => none

/-- The call that a node is, if it is one. -/
def call? : Node → Option Call
  | ofExpression (.call receiver method arguments _) => some ⟨receiver, method, arguments⟩
  | _ => none

/-- The assignment that a node is, if it is one. -/
def assignment? : Node → Option Assignment
  | ofExpression (.assignment left right _) => some ⟨left, right⟩
  | _ => none

/-- Where a node stands. -/
def span : Node → Span
  | ofClass c => c.span
  | ofMethod m => m.span
  | ofField f => f.span
  | ofStatement s => s.span
  | ofExpression e => e.span

end Node

/-- The node for a declaration. -/
def Declaration.toNode : Declaration → Node
  | classDef name body span => .ofClass ⟨name, body, span⟩
  | method m => .ofMethod m
  | field f => .ofField f

/-! ## All nodes -/

mutual

/-- An expression and its parts, in the order of the text. -/
def Expression.nodes : Expression → List Node
  | .identifier name span => [.ofExpression (.identifier name span)]
  | .literal value span => [.ofExpression (.literal value span)]
  | .call receiver method arguments span =>
      .ofExpression (.call receiver method arguments span) ::
        (receiver.nodes ++ nodesOfExpressions arguments)
  | .assignment left right span =>
      .ofExpression (.assignment left right span) :: (left.nodes ++ right.nodes)

/-- The nodes of expressions, one after the other. -/
def nodesOfExpressions : List Expression → List Node
  | [] => []
  | e :: rest => e.nodes ++ nodesOfExpressions rest

end

mutual

/-- A statement and its parts, in the order of the text. -/
def Statement.nodes : Statement → List Node
  | .conditional condition body alternatives otherwise span =>
      .ofStatement (.conditional condition body alternatives otherwise span) ::
        (condition.nodes ++ nodesOfBlock body ++ nodesOfAlternatives alternatives ++
          nodesOfBlock otherwise)
  | .loop body span => .ofStatement (.loop body span) :: nodesOfBlock body
  | .leave span => [.ofStatement (.leave span)]
  | .cycle span => [.ofStatement (.cycle span)]
  | .ret none span => [.ofStatement (.ret none span)]
  | .ret (some value) span => .ofStatement (.ret (some value) span) :: value.nodes
  | .expression value span => .ofStatement (.expression value span) :: value.nodes

/-- The nodes of statements, one after the other. -/
def nodesOfBlock : List Statement → List Node
  | [] => []
  | s :: rest => s.nodes ++ nodesOfBlock rest

/-- The nodes of further conditions and their bodies. -/
def nodesOfAlternatives : List (Expression × List Statement) → List Node
  | [] => []
  | (condition, body) :: rest => condition.nodes ++ nodesOfBlock body ++ nodesOfAlternatives rest

end

/-- A method and its parts: the types of its arguments, its return type and its body. -/
def Method.nodes (m : Method) : List Node :=
  .ofMethod m ::
    (nodesOfExpressions (m.arguments.map (·.type)) ++ nodesOfExpressions m.returns.toList ++
      nodesOfBlock m.body)

/-- A field and its type. -/
def Field.nodes (f : Field) : List Node := .ofField f :: f.type.nodes

mutual

/-- A declaration and its parts. -/
def Declaration.nodes : Declaration → List Node
  | .classDef name body span => .ofClass ⟨name, body, span⟩ :: nodesOfDeclarations body
  | .method m => m.nodes
  | .field f => f.nodes

/-- The nodes of declarations, one after the other. -/
def nodesOfDeclarations : List Declaration → List Node
  | [] => []
  | d :: rest => d.nodes ++ nodesOfDeclarations rest

end

/-- A class and all of its parts. -/
def Class.nodes (c : Class) : List Node := c.toDeclaration.nodes

end Bucket
