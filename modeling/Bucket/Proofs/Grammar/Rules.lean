/-
# The grammar

The grammar of programs, one relation for each rule. A relation holds of the tokens that are left
before and after what the rule derives, and of the tree, without places, of what it derives. The end
of the file is where no tokens are left.

The grammar itself leaves open whether a name in front of parentheses is called as it stands or is a
value that is called. Here an operand remembers that it is a bare name, or a member without
arguments, so that both derivations give the call of the name.
-/
import Bucket.Tree.Basic

namespace Bucket.Grammar

/-- The kinds of tokens that are left. -/
abbrev Kinds := List Token.Kind

/-! ## Operators -/

/-- The methods of `==` and `!=`. -/
def equalityMethod? : Token.Kind → Option String
  | .symbol .doubleEquals => some "__eq__"
  | .symbol .bangEquals => some "__ne__"
  | _ => none

/-- The methods of `>`, `>=`, `<` and `<=`. -/
def comparisonMethod? : Token.Kind → Option String
  | .symbol .greater => some "__gt__"
  | .symbol .greaterOrEqual => some "__ge__"
  | .symbol .lesser => some "__lt__"
  | .symbol .lesserOrEqual => some "__le__"
  | _ => none

/-- The methods of `+` and `-` between operands. -/
def additiveMethod? : Token.Kind → Option String
  | .symbol .plus => some "__add__"
  | .symbol .minus => some "__sub__"
  | _ => none

/-- The methods of `*`, `/` and `%` between operands. -/
def multiplicativeMethod? : Token.Kind → Option String
  | .symbol .asterisk => some "__mul__"
  | .symbol .slash => some "__div__"
  | .symbol .percent => some "__mod__"
  | _ => none

/-- The methods of `+`, `-`, `*`, `&` and `not` in front of an operand. -/
def unaryMethod? : Token.Kind → Option String
  | .symbol .plus => some "__pos__"
  | .symbol .minus => some "__neg__"
  | .symbol .asterisk => some "__dereference__"
  | .symbol .ampersand => some "__addressof__"
  | .keyword .notKw => some "__not__"
  | _ => none

/-! ## Operands -/

/-- An operand and whether it is a bare name or a member without arguments. -/
inductive Head where
  | name (n : String)
  | member (receiver : Expression) (n : String)
  | value (e : Expression)

namespace Head

/-- The tree of an operand. -/
def tree : Head → Expression
  | name n => .identifier n .first
  | member receiver n => .call receiver n [] .first
  | value e => e

/-- The tree of a call of an operand. A bare name is called on the object itself. -/
def call (arguments : List Expression) : Head → Expression
  | name n => .call (.identifier "__self__" .first) n arguments .first
  | member receiver n => .call receiver n arguments .first
  | value e => .call e "__call__" arguments .first

/-- The tree of a call of an operand in square brackets. -/
def index (arguments : List Expression) (h : Head) : Expression :=
  .call h.tree "__index__" arguments .first

end Head

/-! ## Expressions -/

mutual

/-- `expr = or-expr ["=" expr]` -/
inductive Expr : Kinds → Kinds → Expression → Prop where
  | value {i r : Kinds} {e : Expression} : OrExpr i r e → Expr i r e
  | assign {i j r : Kinds} {e f : Expression} :
      OrExpr i (.symbol .equals :: j) e → Expr j r f → Expr i r (.assignment e f .first)

/-- `or-expr = and-expr ["or" or-expr]` -/
inductive OrExpr : Kinds → Kinds → Expression → Prop where
  | value {i r : Kinds} {e : Expression} : AndExpr i r e → OrExpr i r e
  | or {i j r : Kinds} {e f : Expression} :
      AndExpr i (.keyword .orKw :: j) e → OrExpr j r f → OrExpr i r (.call e "__or__" [f] .first)

/-- `and-expr = eq-expr ["and" and-expr]` -/
inductive AndExpr : Kinds → Kinds → Expression → Prop where
  | value {i r : Kinds} {e : Expression} : EqExpr i r e → AndExpr i r e
  | and {i j r : Kinds} {e f : Expression} :
      EqExpr i (.keyword .andKw :: j) e → AndExpr j r f →
      AndExpr i r (.call e "__and__" [f] .first)

/-- `eq-expr = cmp-expr [("==" / "!=") cmp-expr]` -/
inductive EqExpr : Kinds → Kinds → Expression → Prop where
  | value {i r : Kinds} {e : Expression} : CmpExpr i r e → EqExpr i r e
  | eq {i j r : Kinds} {e f : Expression} {k : Token.Kind} {m : String} :
      CmpExpr i (k :: j) e → equalityMethod? k = some m → CmpExpr j r f →
      EqExpr i r (.call e m [f] .first)

/-- `cmp-expr = add-expr [(">" / ">=" / "<" / "<=") add-expr]` -/
inductive CmpExpr : Kinds → Kinds → Expression → Prop where
  | value {i r : Kinds} {e : Expression} : AddExpr i r e → CmpExpr i r e
  | cmp {i j r : Kinds} {e f : Expression} {k : Token.Kind} {m : String} :
      AddExpr i (k :: j) e → comparisonMethod? k = some m → AddExpr j r f →
      CmpExpr i r (.call e m [f] .first)

/-- `add-expr = mul-expr *(("+" / "-") mul-expr)` -/
inductive AddExpr : Kinds → Kinds → Expression → Prop where
  | mk {i j r : Kinds} {e f : Expression} : MulExpr i j e → AddTail e j r f → AddExpr i r f

/-- `*(("+" / "-") mul-expr)`, behind an expression. -/
inductive AddTail : Expression → Kinds → Kinds → Expression → Prop where
  | done {r : Kinds} {e : Expression} : AddTail e r r e
  | add {i j r : Kinds} {e f g : Expression} {k : Token.Kind} {m : String} :
      additiveMethod? k = some m → MulExpr i j f → AddTail (.call e m [f] .first) j r g →
      AddTail e (k :: i) r g

/-- `mul-expr = unary-expr *(("*" / "/" / "%") unary-expr)` -/
inductive MulExpr : Kinds → Kinds → Expression → Prop where
  | mk {i j r : Kinds} {e f : Expression} : UnaryExpr i j e → MulTail e j r f → MulExpr i r f

/-- `*(("*" / "/" / "%") unary-expr)`, behind an expression. -/
inductive MulTail : Expression → Kinds → Kinds → Expression → Prop where
  | done {r : Kinds} {e : Expression} : MulTail e r r e
  | mul {i j r : Kinds} {e f g : Expression} {k : Token.Kind} {m : String} :
      multiplicativeMethod? k = some m → UnaryExpr i j f → MulTail (.call e m [f] .first) j r g →
      MulTail e (k :: i) r g

/-- `unary-expr = ("+" / "-" / "*" / "&") unary-expr`, `"not" unary-expr` or `pow-expr` -/
inductive UnaryExpr : Kinds → Kinds → Expression → Prop where
  | value {i r : Kinds} {e : Expression} : PowExpr i r e → UnaryExpr i r e
  | unary {i r : Kinds} {e : Expression} {k : Token.Kind} {m : String} :
      unaryMethod? k = some m → UnaryExpr i r e → UnaryExpr (k :: i) r (.call e m [] .first)

/-- `pow-expr = postfix-expr ["^" unary-expr]` -/
inductive PowExpr : Kinds → Kinds → Expression → Prop where
  | value {i r : Kinds} {e : Expression} : PostfixExpr i r e → PowExpr i r e
  | pow {i j r : Kinds} {e f : Expression} :
      PostfixExpr i (.symbol .caret :: j) e → UnaryExpr j r f →
      PowExpr i r (.call e "__pow__" [f] .first)

/-- `postfix-expr = primary-expr *postfix` -/
inductive PostfixExpr : Kinds → Kinds → Expression → Prop where
  | mk {i j r : Kinds} {h h' : Head} :
      PrimaryExpr i j h → PostfixTail h j r h' → PostfixExpr i r h'.tree

/-- `*postfix`, behind an operand, with `postfix = "." name [call-args]`, `call-args` or
`"[" expr *("," expr) "]"`. -/
inductive PostfixTail : Head → Kinds → Kinds → Head → Prop where
  | done {r : Kinds} {h : Head} : PostfixTail h r r h
  | member {i r : Kinds} {h h' : Head} {n : String} :
      PostfixTail (.member h.tree n) i r h' →
      PostfixTail h (.symbol .period :: .identifier n :: i) r h'
  | memberCall {i j r : Kinds} {h h' : Head} {n : String} {es : List Expression} :
      CallArgs i j es → PostfixTail (.value (.call h.tree n es .first)) j r h' →
      PostfixTail h (.symbol .period :: .identifier n :: i) r h'
  | call {i j r : Kinds} {h h' : Head} {es : List Expression} :
      CallArgs i j es → PostfixTail (.value (h.call es)) j r h' → PostfixTail h i r h'
  | index {i j r : Kinds} {h h' : Head} {es : List Expression} :
      ExprList i (.symbol .closeBracket :: j) es → PostfixTail (.value (h.index es)) j r h' →
      PostfixTail h (.symbol .openBracket :: i) r h'

/-- `call-args = "(" [expr *("," expr)] ")"` -/
inductive CallArgs : Kinds → Kinds → List Expression → Prop where
  | empty {r : Kinds} :
      CallArgs (.symbol .openParenthesis :: .symbol .closeParenthesis :: r) r []
  | list {i r : Kinds} {es : List Expression} :
      ExprList i (.symbol .closeParenthesis :: r) es →
      CallArgs (.symbol .openParenthesis :: i) r es

/-- `expr *("," expr)` -/
inductive ExprList : Kinds → Kinds → List Expression → Prop where
  | one {i r : Kinds} {e : Expression} : Expr i r e → ExprList i r [e]
  | more {i j r : Kinds} {e : Expression} {es : List Expression} :
      Expr i (.symbol .comma :: j) e → ExprList j r es → ExprList i r (e :: es)

/-- `primary-expr = name [call-args] / integer / real / string / character / boolean` or
`"(" expr ")"` -/
inductive PrimaryExpr : Kinds → Kinds → Head → Prop where
  | name {r : Kinds} {n : String} : PrimaryExpr (.identifier n :: r) r (.name n)
  | nameCall {i r : Kinds} {n : String} {es : List Expression} :
      CallArgs i r es → PrimaryExpr (.identifier n :: i) r (.value (Head.call es (.name n)))
  | literal {r : Kinds} {v : Literal} :
      PrimaryExpr (.literal v :: r) r (.value (.literal v .first))
  | group {i r : Kinds} {e : Expression} :
      Expr i (.symbol .closeParenthesis :: r) e →
      PrimaryExpr (.symbol .openParenthesis :: i) r (.value e)

end

/-! ## Statements -/

mutual

/-- `statement = if-stmt / loop-stmt`, `"break" NL / "cycle" NL / "ret" [expr] NL` or `expr NL` -/
inductive Stmt : Kinds → Kinds → Statement → Prop where
  | conditional {i r : Kinds} {s : Statement} : IfStmt i r s → Stmt i r s
  | loop {i r : Kinds} {s : Statement} : LoopStmt i r s → Stmt i r s
  | leave {r : Kinds} : Stmt (.keyword .breakKw :: .symbol .newline :: r) r (.leave .first)
  | cycle {r : Kinds} : Stmt (.keyword .cycleKw :: .symbol .newline :: r) r (.cycle .first)
  | ret {r : Kinds} : Stmt (.keyword .retKw :: .symbol .newline :: r) r (.ret none .first)
  | retValue {i r : Kinds} {e : Expression} :
      Expr i (.symbol .newline :: r) e → Stmt (.keyword .retKw :: i) r (.ret (some e) .first)
  | expression {i r : Kinds} {e : Expression} :
      Expr i (.symbol .newline :: r) e → Stmt i r (.expression e .first)

/-- `if-stmt = "if" expr NL block *("elif" expr NL block) ["else" NL block] "end"` -/
inductive IfStmt : Kinds → Kinds → Statement → Prop where
  | mk {i j k l r : Kinds} {c : Expression} {body otherwise : List Statement}
      {as : List (Expression × List Statement)} :
      Expr i (.symbol .newline :: j) c → Block j k body → Elifs k l as →
      Else l (.keyword .endKw :: r) otherwise →
      IfStmt (.keyword .ifKw :: i) r (.conditional c body as otherwise .first)

/-- `*("elif" expr NL block)` -/
inductive Elifs : Kinds → Kinds → List (Expression × List Statement) → Prop where
  | done {r : Kinds} : Elifs r r []
  | elif {i j k r : Kinds} {c : Expression} {body : List Statement}
      {as : List (Expression × List Statement)} :
      Expr i (.symbol .newline :: j) c → Block j k body → Elifs k r as →
      Elifs (.keyword .elifKw :: i) r ((c, body) :: as)

/-- `["else" NL block]` -/
inductive Else : Kinds → Kinds → List Statement → Prop where
  | absent {r : Kinds} : Else r r []
  | present {i r : Kinds} {body : List Statement} :
      Block i r body → Else (.keyword .elseKw :: .symbol .newline :: i) r body

/-- `loop-stmt = "do" NL block "end" NL` -/
inductive LoopStmt : Kinds → Kinds → Statement → Prop where
  | mk {i r : Kinds} {body : List Statement} :
      Block i (.keyword .endKw :: .symbol .newline :: r) body →
      LoopStmt (.keyword .doKw :: .symbol .newline :: i) r (.loop body .first)

/-- `block = *(statement / NL)` -/
inductive Block : Kinds → Kinds → List Statement → Prop where
  | done {r : Kinds} : Block r r []
  | newline {i r : Kinds} {ss : List Statement} : Block i r ss → Block (.symbol .newline :: i) r ss
  | statement {i j r : Kinds} {s : Statement} {ss : List Statement} :
      Stmt i j s → Block j r ss → Block i r (s :: ss)

end

/-! ## Declarations -/

/-- `NL / EOF` -/
inductive LineEnd : Kinds → Kinds → Prop where
  | newline {r : Kinds} : LineEnd (.symbol .newline :: r) r
  | endOfFile : LineEnd [] []

/-- `argument = name ":" postfix-expr` -/
inductive Arg : Kinds → Kinds → Argument → Prop where
  | mk {i r : Kinds} {n : String} {e : Expression} :
      PostfixExpr i r e → Arg (.identifier n :: .symbol .colon :: i) r ⟨n, e, .first⟩

/-- `argument *("," argument)` -/
inductive ArgList : Kinds → Kinds → List Argument → Prop where
  | one {i r : Kinds} {a : Argument} : Arg i r a → ArgList i r [a]
  | more {i j r : Kinds} {a : Argument} {as : List Argument} :
      Arg i (.symbol .comma :: j) a → ArgList j r as → ArgList i r (a :: as)

/-- `[arguments]`, with `arguments = "(" [argument *("," argument)] ")"` -/
inductive Args : Kinds → Kinds → List Argument → Prop where
  | absent {r : Kinds} : Args r r []
  | empty {r : Kinds} : Args (.symbol .openParenthesis :: .symbol .closeParenthesis :: r) r []
  | list {i r : Kinds} {as : List Argument} :
      ArgList i (.symbol .closeParenthesis :: r) as → Args (.symbol .openParenthesis :: i) r as

/-- `[":" postfix-expr]` -/
inductive ReturnType : Kinds → Kinds → Option Expression → Prop where
  | absent {r : Kinds} : ReturnType r r none
  | present {i r : Kinds} {e : Expression} :
      PostfixExpr i r e → ReturnType (.symbol .colon :: i) r (some e)

/-- `method-def = "method" name [arguments] [":" postfix-expr] NL block "end" (NL / EOF)` -/
inductive MethodDef : Kinds → Kinds → Method → Prop where
  | mk {i j k l r : Kinds} {n : String} {as : List Argument} {type : Option Expression}
      {body : List Statement} :
      Args i j as → ReturnType j (.symbol .newline :: k) type →
      Block k (.keyword .endKw :: l) body → LineEnd l r →
      MethodDef (.keyword .methodKw :: .identifier n :: i) r ⟨n, as, type, body, .first⟩

/-- `field-decl = name ":" expr NL` -/
inductive FieldDecl : Kinds → Kinds → Field → Prop where
  | mk {i r : Kinds} {n : String} {e : Expression} :
      Expr i (.symbol .newline :: r) e →
      FieldDecl (.identifier n :: .symbol .colon :: i) r ⟨n, e, .first⟩

mutual

/-- `class-def = "class" name NL *(global-statement / NL) "end" (NL / EOF)` -/
inductive ClassDef : Kinds → Kinds → Declaration → Prop where
  | mk {i j r : Kinds} {n : String} {ds : List Declaration} :
      Body i (.keyword .endKw :: j) ds → LineEnd j r →
      ClassDef (.keyword .classKw :: .identifier n :: .symbol .newline :: i) r
        (.classDef n ds .first)

/-- `global-statement = class-def / method-def / field-decl` -/
inductive GlobalStatement : Kinds → Kinds → Declaration → Prop where
  | classDef {i r : Kinds} {d : Declaration} : ClassDef i r d → GlobalStatement i r d
  | methodDef {i r : Kinds} {m : Method} : MethodDef i r m → GlobalStatement i r (.method m)
  | fieldDecl {i r : Kinds} {f : Field} : FieldDecl i r f → GlobalStatement i r (.field f)

/-- `*(global-statement / NL)` -/
inductive Body : Kinds → Kinds → List Declaration → Prop where
  | done {r : Kinds} : Body r r []
  | newline {i r : Kinds} {ds : List Declaration} : Body i r ds → Body (.symbol .newline :: i) r ds
  | statement {i j r : Kinds} {d : Declaration} {ds : List Declaration} :
      GlobalStatement i j d → Body j r ds → Body i r (d :: ds)

end

/-- `program = *(global-statement / NL) EOF` -/
def Program (kinds : Kinds) (ds : List Declaration) : Prop := Body kinds [] ds

end Bucket.Grammar
