/-
# Trees without places

Two trees mean the same when they differ only in where their parts stand. Here all spans of a tree
are replaced by the empty span at the beginning, so that such trees become equal.
-/
import Bucket.Tree.Basic

namespace Bucket

mutual

/-- An expression without its places. -/
def Expression.bare : Expression → Expression
  | .identifier name _ => .identifier name .first
  | .literal value _ => .literal value .first
  | .call receiver method arguments _ =>
      .call receiver.bare method (bareExpressions arguments) .first
  | .assignment left right _ => .assignment left.bare right.bare .first

/-- Expressions without their places. -/
def bareExpressions : List Expression → List Expression
  | [] => []
  | e :: rest => e.bare :: bareExpressions rest

end

mutual

/-- A statement without its places. -/
def Statement.bare : Statement → Statement
  | .conditional condition body alternatives otherwise _ =>
      .conditional condition.bare (bareBlock body) (bareAlternatives alternatives)
        (bareBlock otherwise) .first
  | .loop body _ => .loop (bareBlock body) .first
  | .leave _ => .leave .first
  | .cycle _ => .cycle .first
  | .ret value _ => .ret (value.map Expression.bare) .first
  | .expression value _ => .expression value.bare .first

/-- Statements without their places. -/
def bareBlock : List Statement → List Statement
  | [] => []
  | s :: rest => s.bare :: bareBlock rest

/-- Further conditions and their bodies without their places. -/
def bareAlternatives : List (Expression × List Statement) → List (Expression × List Statement)
  | [] => []
  | (condition, body) :: rest => (condition.bare, bareBlock body) :: bareAlternatives rest

end

/-- An argument without its places. -/
def Argument.bare (a : Argument) : Argument := ⟨a.name, a.type.bare, .first⟩

/-- A method without its places. -/
def Method.bare (m : Method) : Method :=
  ⟨m.name, m.arguments.map Argument.bare, m.returns.map Expression.bare, bareBlock m.body, .first⟩

/-- A field without its places. -/
def Field.bare (f : Field) : Field := ⟨f.name, f.type.bare, .first⟩

mutual

/-- A declaration without its places. -/
def Declaration.bare : Declaration → Declaration
  | .classDef name body _ => .classDef name (bareDeclarations body) .first
  | .method m => .method m.bare
  | .field f => .field f.bare

/-- Declarations without their places. -/
def bareDeclarations : List Declaration → List Declaration
  | [] => []
  | d :: rest => d.bare :: bareDeclarations rest

end

/-- A class without its places. -/
def Class.bare (c : Class) : Class := ⟨c.name, bareDeclarations c.body, .first⟩

/-! ## Lists of parts -/

theorem bareDeclarations_eq_map (ds : List Declaration) :
    bareDeclarations ds = ds.map Declaration.bare := by
  induction ds with
  | nil => rfl
  | cons d rest ih => simp [bareDeclarations, ih]

end Bucket
