/-
# Expressions as they are written

Before operators become calls, an expression is built from names, literals, operators, calls and
indexing. Here are such expressions (`Surface`), the trees that they stand for (`Surface.desugar`), and
the tokens that they may be written as (`Surface.Written`): with parentheses where the level of an
operand is too low for its operator, and with any others as well.
-/
import Bucket.Proofs.Grammar.Climbing

namespace Bucket

open Bucket.Parser (PrefixOp BinaryOp InfixOp)

/-! ## Trees -/

/-- An expression as it is written. A call is one of a name, of a member, or of a value, and what is
indexed has at least one index. Assignment is one of the operators between operands. -/
inductive Surface where
  | name (n : String)
  | literal (v : Literal)
  | nameCall (f : String) (arguments : List Surface)
  | member (receiver : Surface) (n : String)
  | memberCall (receiver : Surface) (n : String) (arguments : List Surface)
  | call (callee : Surface) (arguments : List Surface)
  | index (receiver first : Surface) (rest : List Surface)
  | unary (op : PrefixOp) (operand : Surface)
  | binary (op : InfixOp) (left right : Surface)

namespace Surface

/-- The method that an operator in front of its operand stands for. -/
def prefixMethod : PrefixOp → String
  | .positive => "__pos__"
  | .negative => "__neg__"
  | .dereference => "__dereference__"
  | .addressOf => "__addressof__"
  | .not => "__not__"

/-- The method that an operator between operands stands for. -/
def binaryMethod : BinaryOp → String
  | .or => "__or__"
  | .and => "__and__"
  | .eq => "__eq__"
  | .ne => "__ne__"
  | .gt => "__gt__"
  | .ge => "__ge__"
  | .lt => "__lt__"
  | .le => "__le__"
  | .add => "__add__"
  | .sub => "__sub__"
  | .mul => "__mul__"
  | .div => "__div__"
  | .mod => "__mod__"
  | .pow => "__pow__"

mutual

/-- The tree of an expression. An operator is a call of its method on its left, or only, operand. A
name is called on the object itself, a member without parentheses is called with no arguments, and all
that is called otherwise is called by the method for that. -/
def desugar : Surface → Expression
  | name n => .identifier n .first
  | literal v => .literal v .first
  | nameCall f arguments => .call (.identifier "__self__" .first) f (desugarAll arguments) .first
  | member receiver n => .call receiver.desugar n [] .first
  | memberCall receiver n arguments => .call receiver.desugar n (desugarAll arguments) .first
  | call callee arguments => .call callee.desugar "__call__" (desugarAll arguments) .first
  | index receiver first rest =>
      .call receiver.desugar "__index__" (first.desugar :: desugarAll rest) .first
  | unary op operand => .call operand.desugar (prefixMethod op) [] .first
  | binary .assign left right => .assignment left.desugar right.desugar .first
  | binary (.binary op) left right => .call left.desugar (binaryMethod op) [right.desugar] .first

/-- The trees of some expressions. -/
def desugarAll : List Surface → List Expression
  | [] => []
  | x :: rest => x.desugar :: desugarAll rest

end

/-! ## Levels -/

/-- The level of an operator, and those that its left and its right operand need. -/
structure Levels where
  own : Nat
  left : Nat
  right : Nat
  deriving DecidableEq

/-- The levels of the operators between operands, from the loosest to the tightest. Assignments,
alternatives and conjunctions group to the right. Equations do not chain, nor do comparisons. Sums and
products group to the left. The left operand of a power has level 10, that of names, literals, calls
and parentheses, and its right operand may begin with an operator, on level 8. -/
def levels : InfixOp → Levels
  | .assign => ⟨1, 2, 1⟩
  | .binary .or => ⟨2, 3, 2⟩
  | .binary .and => ⟨3, 4, 3⟩
  | .binary .eq | .binary .ne => ⟨4, 5, 5⟩
  | .binary .gt | .binary .ge | .binary .lt | .binary .le => ⟨5, 6, 6⟩
  | .binary .add | .binary .sub => ⟨6, 6, 7⟩
  | .binary .mul | .binary .div | .binary .mod => ⟨7, 7, 8⟩
  | .binary .pow => ⟨9, 10, 8⟩

/-! ## Tokens -/

end Surface

namespace Parser.PrefixOp

/-- The token of an operator in front of its operand. -/
def kind : PrefixOp → Token.Kind
  | positive => .symbol .plus
  | negative => .symbol .minus
  | dereference => .symbol .asterisk
  | addressOf => .symbol .ampersand
  | not => .keyword .notKw

theorem ofKind?_kind (op : PrefixOp) : ofKind? op.kind = some op := by
  cases op <;> rfl

end Parser.PrefixOp

namespace Surface

/-- Whether an expression, with parentheses directly behind it, is another call than that of its
value. -/
def isBare : Surface → Bool
  | name _ => true
  | member _ _ => true
  | _ => false

mutual

/-- Whether an expression may be written as some tokens where one of a level is needed. -/
inductive Written : Nat → Surface → List Token.Kind → Prop where
  /-- What has a level may stand where a lower one is needed. -/
  | lower {m n : Nat} {x : Surface} {w : List Token.Kind} : m ≤ n → Written n x w → Written m x w
  /-- Everything may stand in parentheses. -/
  | group {x : Surface} {w : List Token.Kind} :
      Written 1 x w →
      Written 10 x (.symbol .openParenthesis :: (w ++ [.symbol .closeParenthesis]))
  | name (n : String) : Written 10 (name n) [.identifier n]
  | literal (v : Literal) : Written 10 (literal v) [.literal v]
  | nameCall (f : String) {xs : List Surface} {v : List Token.Kind} :
      WrittenArguments xs v →
      Written 10 (nameCall f xs)
        (.identifier f :: .symbol .openParenthesis :: (v ++ [.symbol .closeParenthesis]))
  | member {x : Surface} {w : List Token.Kind} (n : String) :
      Written 10 x w → Written 10 (member x n) (w ++ [.symbol .period, .identifier n])
  | memberCall {x : Surface} {xs : List Surface} {w v : List Token.Kind} (n : String) :
      Written 10 x w → WrittenArguments xs v →
      Written 10 (memberCall x n xs)
        (w ++ .symbol .period :: .identifier n :: .symbol .openParenthesis ::
          (v ++ [.symbol .closeParenthesis]))
  /-- What is called needs parentheses when it is a name or a member without arguments. -/
  | call {x : Surface} {xs : List Surface} {w v : List Token.Kind} :
      x.isBare = false → Written 10 x w → WrittenArguments xs v →
      Written 10 (call x xs)
        (w ++ .symbol .openParenthesis :: (v ++ [.symbol .closeParenthesis]))
  | callGroup {x : Surface} {xs : List Surface} {w v : List Token.Kind} :
      Written 1 x w → WrittenArguments xs v →
      Written 10 (call x xs)
        ((.symbol .openParenthesis :: (w ++ [.symbol .closeParenthesis])) ++
          .symbol .openParenthesis :: (v ++ [.symbol .closeParenthesis]))
  | index {x y : Surface} {ys : List Surface} {w v : List Token.Kind} :
      Written 10 x w → WrittenArguments (y :: ys) v →
      Written 10 (index x y ys) (w ++ .symbol .openBracket :: (v ++ [.symbol .closeBracket]))
  | unary (op : PrefixOp) {x : Surface} {w : List Token.Kind} :
      Written 8 x w → Written 8 (unary op x) (op.kind :: w)
  | binary (op : InfixOp) {x y : Surface} {w v : List Token.Kind} :
      Written (levels op).left x w → Written (levels op).right y v →
      Written (levels op).own (binary op x y) (w ++ op.kind :: v)

/-- Whether arguments may be written as some tokens, with commas between them. -/
inductive WrittenArguments : List Surface → List Token.Kind → Prop where
  | none : WrittenArguments [] []
  | one {x : Surface} {w : List Token.Kind} : Written 1 x w → WrittenArguments [x] w
  | more {x y : Surface} {ys : List Surface} {w v : List Token.Kind} :
      Written 1 x w → WrittenArguments (y :: ys) v →
      WrittenArguments (x :: y :: ys) (w ++ .symbol .comma :: v)

end

end Surface

end Bucket
