/-
# Operators

Every operator stands for a method of its left, or only, operand. How operators share their operands
is given by levels: the higher the level, the tighter the operator binds. Level 10 is that of names,
literals and calls.
-/
import Bucket.Tree.Basic

namespace Bucket.Parser

/-! ## Operators in front of an operand -/

/-- An operator in front of its operand. -/
inductive PrefixOp where
  | positive
  | negative
  | dereference
  | addressOf
  | not
  deriving DecidableEq

namespace PrefixOp

/-- The operator that a token is in front of an operand, if it is one. -/
def ofKind? : Token.Kind → Option PrefixOp
  | .symbol .plus => some positive
  | .symbol .minus => some negative
  | .symbol .asterisk => some dereference
  | .symbol .ampersand => some addressOf
  | .keyword .notKw => some not
  | _ => none

/-- The method that an operator calls. -/
def method : PrefixOp → String
  | positive => "__pos__"
  | negative => "__neg__"
  | dereference => "__dereference__"
  | addressOf => "__addressof__"
  | not => "__not__"

/-- The level of an operator in front of its operand, and the one that its operand needs. -/
def level : Nat := 8

/-- An operator applied to its operand. -/
def apply (op : PrefixOp) (opener : Span) (operand : Expression) : Expression :=
  .call operand op.method [] (opener + operand.span)

end PrefixOp

/-! ## Operators between operands -/

/-- An operator that calls a method of its left operand. -/
inductive BinaryOp where
  | or
  | and
  | eq
  | ne
  | gt
  | ge
  | lt
  | le
  | add
  | sub
  | mul
  | div
  | mod
  | pow
  deriving DecidableEq

namespace BinaryOp

/-- The method that an operator calls. -/
def method : BinaryOp → String
  | or => "__or__"
  | and => "__and__"
  | eq => "__eq__"
  | ne => "__ne__"
  | gt => "__gt__"
  | ge => "__ge__"
  | lt => "__lt__"
  | le => "__le__"
  | add => "__add__"
  | sub => "__sub__"
  | mul => "__mul__"
  | div => "__div__"
  | mod => "__mod__"
  | pow => "__pow__"

end BinaryOp

/-- An operator between its operands. -/
inductive InfixOp where
  | assign
  | binary (op : BinaryOp)
  deriving DecidableEq

namespace InfixOp

/-- The operator that a token is behind an operand, if it is one. -/
def ofKind? : Token.Kind → Option InfixOp
  | .symbol .equals => some assign
  | .keyword .orKw => some (binary .or)
  | .keyword .andKw => some (binary .and)
  | .symbol .doubleEquals => some (binary .eq)
  | .symbol .bangEquals => some (binary .ne)
  | .symbol .greater => some (binary .gt)
  | .symbol .greaterOrEqual => some (binary .ge)
  | .symbol .lesser => some (binary .lt)
  | .symbol .lesserOrEqual => some (binary .le)
  | .symbol .plus => some (binary .add)
  | .symbol .minus => some (binary .sub)
  | .symbol .asterisk => some (binary .mul)
  | .symbol .slash => some (binary .div)
  | .symbol .percent => some (binary .mod)
  | .symbol .caret => some (binary .pow)
  | _ => none

/-- The level of an operator. -/
def level : InfixOp → Nat
  | assign => 1
  | binary .or => 2
  | binary .and => 3
  | binary .eq | binary .ne => 4
  | binary .gt | binary .ge | binary .lt | binary .le => 5
  | binary .add | binary .sub => 6
  | binary .mul | binary .div | binary .mod => 7
  | binary .pow => 9

/-- The level that the right operand needs. Assignments, alternatives and conjunctions group to the
right, comparisons do not chain, and sums and products group to the left. The right operand of a
power may begin with an operator of its own. -/
def operandLevel : InfixOp → Nat
  | assign => 1
  | binary .or => 2
  | binary .and => 3
  | binary .eq | binary .ne => 5
  | binary .gt | binary .ge | binary .lt | binary .le => 6
  | binary .add | binary .sub => 7
  | binary .mul | binary .div | binary .mod => 8
  | binary .pow => 8

/-- The highest level of an operator that may follow an application of this one and take it as its
left operand. -/
def followLevel : InfixOp → Nat
  | assign => 0
  | binary .or => 1
  | binary .and => 2
  | binary .eq | binary .ne => 3
  | binary .gt | binary .ge | binary .lt | binary .le => 4
  | binary .add | binary .sub => 6
  | binary .mul | binary .div | binary .mod => 7
  | binary .pow => 8

/-- An operator applied to its operands. -/
def apply (op : InfixOp) (left right : Expression) : Expression :=
  match op with
  | assign => .assignment left right (left.span + right.span)
  | binary op => .call left op.method [right] (left.span + right.span)

end InfixOp

end Bucket.Parser
