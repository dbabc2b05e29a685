/-
# What a parser holds

A parser holds the tokens that it has read as items: the tokens of parts that are still open, and
between them the parts that are complete (`State.Holds`). The items of what is open around a place stand
in front of its own. A token is put behind all of them, and where it completes parts, the last items are
taken for these (`State.accounts_step`). So in the end all tokens are those of complete declarations.
-/
import Bucket.Parser.Step
import Bucket.Proofs.Spans.Items

namespace Bucket

/-- A list of parts goes on with another one. -/
theorem Listed.add {α : Type} {f : α → Part} {separator : Symbol} {xs : List α} {items : List Item}
    (h : Listed separator (xs.map f) items) (x : α) :
    Listed separator ((xs ++ [x]).map f) (items ++ [.part (f x)]) := by
  rw [List.map_append]
  exact h.part (f x)

namespace Parser

/-! ## Definitions -/

/-- The items of class bodies that are open. -/
inductive Enclosing.Holds : Enclosing → List Item → Prop where
  | module {done : List Declaration} {items : List Item} :
      OnLines (done.map .ofDeclaration) items → Holds (.module done) items
  | inClass {outer : Enclosing} {n : String} {done : List Declaration} {opener name newline : Token}
      {front items : List Item} :
      outer.Holds front → opener.kind = .keyword .classKw → name.kind = .identifier n →
      newline.kind = .symbol .newline → OnLines (done.map .ofDeclaration) items →
      Holds (.inClass opener.span n done outer)
        (front ++ .token opener :: .token name :: .token newline :: items)

namespace Enclosing.Holds

variable {e : Enclosing} {items : List Item}

theorem add (h : e.Holds items) (d : Declaration) :
    (e.add d).Holds (items ++ [.part (.ofDeclaration d)]) := by
  cases h with
  | module hdone => exact .module (hdone.add d)
  | inClass houter hopener hname hnewline hdone =>
      rw [List.append_assoc]
      exact .inClass houter hopener hname hnewline (hdone.add d)

theorem newline (h : e.Holds items) {t : Token} (ht : t.kind = .symbol .newline) :
    e.Holds (items ++ [.token t]) := by
  cases h with
  | module hdone => exact .module (hdone.separator ht)
  | inClass houter hopener hname hnewline hdone =>
      rw [List.append_assoc]
      exact .inClass houter hopener hname hnewline (hdone.separator ht)

end Enclosing.Holds

/-- The items of the first line of a method, of which the last ones stand behind its name. -/
inductive Header.Holds (h : Header) (behind : List Item) : List Item → Prop where
  | mk {opener name : Token} {front : List Item} :
      h.outer.Holds front → opener.kind = .keyword .methodKw → h.opener = opener.span →
      name.kind = .identifier h.name →
      Holds h behind (front ++ .token opener :: .token name :: behind)

/-- The items of a method whose arguments are being read. -/
inductive Header.HoldsArguments (h : Header) : List Item → Prop where
  | mk {opener : Token} {arguments items : List Item} :
      opener.kind = .symbol .openParenthesis → Listed .comma (h.arguments.map .ofArgument) arguments →
      h.Holds (.token opener :: arguments) items → HoldsArguments h items

namespace Header

variable {h : Header} {behind items : List Item}

theorem Holds.append (hh : h.Holds behind items) (more : List Item) :
    h.Holds (behind ++ more) (items ++ more) := by
  cases hh with
  | mk houter hopener hspan hname =>
      rw [List.append_assoc]
      exact .mk houter hopener hspan hname

theorem HoldsArguments.add (hh : h.HoldsArguments items) (a : Argument) :
    (h.add a).HoldsArguments (items ++ [.part (.ofArgument a)]) := by
  cases hh with
  | mk hopener harguments hh =>
      cases hh with
      | mk houter hmethod hspan hname =>
          refine .mk hopener (harguments.add a) ?_
          rw [List.append_assoc]
          exact .mk houter hmethod hspan hname

theorem HoldsArguments.comma (hh : h.HoldsArguments items) {t : Token} (ht : t.kind = .symbol .comma) :
    h.HoldsArguments (items ++ [.token t]) := by
  cases hh with
  | mk hopener harguments hh => exact .mk hopener (harguments.separator ht) (hh.append [.token t])

end Header

/-! ## Blocks of statements -/

/-- The items of a statement up to the block that is being read. -/
inductive Opened.Holds : Opened → List Item → Prop where
  | thenPart {condition : Expression} {t newline : Token} :
      t.kind = .keyword .ifKw → newline.kind = .symbol .newline →
      Holds (.thenPart t.span condition)
        [.token t, .part (.ofExpression condition), .token newline]
  | elifPart {opener : Span} {condition current : Expression} {body : List Statement}
      {alternatives : List (Expression × List Statement)} {t newline : Token} {items : List Item} :
      Conditions opener condition body alternatives items → t.kind = .keyword .elifKw →
      newline.kind = .symbol .newline →
      Holds (.elifPart opener condition body alternatives current)
        (items ++ [.token t, .part (.ofExpression current), .token newline])
  | elsePart {opener : Span} {condition : Expression} {body : List Statement}
      {alternatives : List (Expression × List Statement)} {t newline : Token} {items : List Item} :
      Conditions opener condition body alternatives items → t.kind = .keyword .elseKw →
      newline.kind = .symbol .newline →
      Holds (.elsePart opener condition body alternatives) (items ++ [.token t, .token newline])
  | loop {t newline : Token} :
      t.kind = .keyword .doKw → newline.kind = .symbol .newline →
      Holds (.loop t.span) [.token t, .token newline]

/-- The items of blocks that are open. -/
inductive Block.Holds : Block → List Item → Prop where
  | method {header : Header} {type : Option Expression} {done : List Statement} {newline : Token}
      {arguments returns items all : List Item} :
      ArgumentList header.arguments arguments → Returned type returns →
      newline.kind = .symbol .newline → OnLines (done.map .ofStatement) items →
      header.Holds (arguments ++ (returns ++ .token newline :: items)) all →
      Holds (.method header type done) all
  | nested {opened : Opened} {done : List Statement} {outer : Block} {front opening items : List Item} :
      outer.Holds front → opened.Holds opening → OnLines (done.map .ofStatement) items →
      Holds (.nested opened done outer) (front ++ (opening ++ items))

namespace Block.Holds

variable {b : Block} {items : List Item}

theorem add (h : b.Holds items) (s : Statement) :
    (b.add s).Holds (items ++ [.part (.ofStatement s)]) := by
  cases h with
  | method harguments hreturns hnewline hdone hh =>
      exact .method harguments hreturns hnewline (hdone.add s)
        (by simpa using hh.append [.part (.ofStatement s)])
  | nested houter hopened hdone =>
      rw [List.append_assoc, List.append_assoc]
      exact .nested houter hopened (hdone.add s)

theorem newline (h : b.Holds items) {t : Token} (ht : t.kind = .symbol .newline) :
    b.Holds (items ++ [.token t]) := by
  cases h with
  | method harguments hreturns hnewline hdone hh =>
      exact .method harguments hreturns hnewline (hdone.separator ht)
        (by simpa using hh.append [.token t])
  | nested houter hopened hdone =>
      rw [List.append_assoc, List.append_assoc]
      exact .nested houter hopened (hdone.separator ht)

end Block.Holds

/-! ## Expressions -/

/-- The items in front of an expression that lies in no other one. -/
inductive Slot.Holds : Slot → List Item → Prop where
  | field {outer : Enclosing} {n : String} {name colon : Token} {front : List Item} :
      outer.Holds front → name.kind = .identifier n → colon.kind = .symbol .colon →
      Holds (.field n name.span outer) (front ++ [.token name, .token colon])
  | argument {header : Header} {n : String} {name colon : Token} {front : List Item} :
      header.HoldsArguments front → name.kind = .identifier n → colon.kind = .symbol .colon →
      Holds (.argument n name.span header) (front ++ [.token name, .token colon])
  | returns {header : Header} {colon : Token} {arguments front : List Item} :
      ArgumentList header.arguments arguments → header.Holds arguments front →
      colon.kind = .symbol .colon → Holds (.returns header) (front ++ [.token colon])
  | ifCondition {block : Block} {t : Token} {front : List Item} :
      block.Holds front → t.kind = .keyword .ifKw →
      Holds (.ifCondition t.span block) (front ++ [.token t])
  | elifCondition {block : Block} {opener : Span} {condition : Expression} {body : List Statement}
      {alternatives : List (Expression × List Statement)} {t : Token} {front items : List Item} :
      block.Holds front → Conditions opener condition body alternatives items →
      t.kind = .keyword .elifKw →
      Holds (.elifCondition opener condition body alternatives block) (front ++ (items ++ [.token t]))
  | ret {block : Block} {t : Token} {front : List Item} :
      block.Holds front → t.kind = .keyword .retKw → Holds (.ret t.span block) (front ++ [.token t])
  | statement {block : Block} {items : List Item} :
      block.Holds items → Holds (.statement block) items

/-- The items of operators that wait, the innermost last. -/
inductive WaitingHolds : List Waiting → List Item → Prop where
  | nil : WaitingHolds [] []
  | prefixOp {op : PrefixOp} {t : Token} {waiting : List Waiting} {items : List Item} :
      WaitingHolds waiting items → PrefixOp.ofKind? t.kind = some op →
      WaitingHolds (.prefixOp op t.span :: waiting) (items ++ [.token t])
  | infixOp {op : InfixOp} {left : Expression} {t : Token} {waiting : List Waiting}
      {items : List Item} :
      WaitingHolds waiting items → InfixOp.ofKind? t.kind = some op →
      WaitingHolds (.infixOp left op :: waiting) (items ++ [.part (.ofExpression left), .token t])

/-- The items in front of an expression and of the operators that wait for it. -/
inductive Context.Holds : Context → List Item → Prop where
  | slot {s : Slot} {items : List Item} : s.Holds items → Holds (.slot s) items
  | group {outer : Context} {waiting : List Waiting} {opener : Token} {front items : List Item} :
      outer.Holds front → WaitingHolds waiting items → opener.kind = .symbol .openParenthesis →
      Holds (.group opener.span waiting outer) (front ++ items ++ [.token opener])
  | arguments {call : OpenCall} {outer : Context} {waiting : List Waiting} {opener : Token}
      {front items callee arguments : List Item} :
      outer.Holds front → WaitingHolds waiting items →
      Callee call.brackets call.receiver call.method callee →
      opener.kind = .symbol call.brackets.opener →
      Listed .comma (call.arguments.map .ofExpression) arguments →
      Holds (.arguments call waiting outer) (front ++ items ++ (callee ++ .token opener :: arguments))

/-- The items of an operand that may still go on. -/
inductive Pending.Holds : Pending → List Item → Prop where
  | name {n : String} {t : Token} :
      t.kind = .identifier n → Holds (.name n t.span) [.token t]
  | member {receiver : Expression} {n : String} {period t : Token} :
      period.kind = .symbol .period → t.kind = .identifier n →
      Holds (.member receiver n t.span)
        [.part (.ofExpression receiver), .token period, .token t]
  | whole (e : Expression) : Holds (.whole e) [.part (.ofExpression e)]

/-! ## States -/

/-- The items that a parser holds. In front of a line end that must follow, they are those that are a
block with it. -/
inductive State.Holds : State → List Item → Prop where
  | declarations {e : Enclosing} {items : List Item} : e.Holds items → Holds (.declarations e) items
  | className {outer : Enclosing} {opener : Token} {front : List Item} :
      outer.Holds front → opener.kind = .keyword .classKw →
      Holds (.className opener.span outer) (front ++ [.token opener])
  | classLine {outer : Enclosing} {n : String} {opener name : Token} {front : List Item} :
      outer.Holds front → opener.kind = .keyword .classKw → name.kind = .identifier n →
      Holds (.classLine opener.span n outer) (front ++ [.token opener, .token name])
  | definitionLine {outer : Enclosing} {items : List Item} :
      outer.Holds items → Holds (.definitionLine outer) items
  | fieldColon {outer : Enclosing} {n : String} {name : Token} {front : List Item} :
      outer.Holds front → name.kind = .identifier n →
      Holds (.fieldColon n name.span outer) (front ++ [.token name])
  | methodName {outer : Enclosing} {opener : Token} {front : List Item} :
      outer.Holds front → opener.kind = .keyword .methodKw →
      Holds (.methodName opener.span outer) (front ++ [.token opener])
  | afterMethodName {header : Header} {items : List Item} :
      header.arguments = [] → header.Holds [] items → Holds (.afterMethodName header) items
  | firstArgument {header : Header} {items : List Item} :
      header.HoldsArguments items → Holds (.firstArgument header) items
  | argumentName {header : Header} {items : List Item} :
      header.HoldsArguments items → Holds (.argumentName header) items
  | argumentColon {header : Header} {n : String} {name : Token} {front : List Item} :
      header.HoldsArguments front → name.kind = .identifier n →
      Holds (.argumentColon n name.span header) (front ++ [.token name])
  | afterArguments {header : Header} {arguments items : List Item} :
      ArgumentList header.arguments arguments → header.Holds arguments items →
      Holds (.afterArguments header) items
  | statements {b : Block} {items : List Item} : b.Holds items → Holds (.statements b) items
  | statementLine {b : Block} {items : List Item} :
      (∀ t : Token, t.kind = .symbol .newline → b.Holds (items ++ [.token t])) →
      Holds (.statementLine b) items
  | ret {b : Block} {t : Token} {front : List Item} :
      b.Holds front → t.kind = .keyword .retKw → Holds (.ret t.span b) (front ++ [.token t])
  | operand {waiting : List Waiting} {context : Context} {front items : List Item} :
      context.Holds front → WaitingHolds waiting items →
      Holds (.operand waiting context) (front ++ items)
  | memberName {receiver : Expression} {waiting : List Waiting} {context : Context} {period : Token}
      {front items : List Item} :
      context.Holds front → WaitingHolds waiting items → period.kind = .symbol .period →
      Holds (.memberName receiver waiting context)
        (front ++ items ++ [.part (.ofExpression receiver), .token period])
  | pending {p : Pending} {waiting : List Waiting} {context : Context} {front items own : List Item} :
      context.Holds front → WaitingHolds waiting items → p.Holds own →
      Holds (.pending p waiting context) (front ++ items ++ own)

/-- Whether a parser has read some tokens as the items that it holds. -/
def State.Accounts (s : State) (ts : List Token) : Prop := ∃ items, s.Holds items ∧ Exact items ts

end Parser

end Bucket
