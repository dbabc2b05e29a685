/-
# Parsing without places

Where the tokens of a program stand has no effect on how it is read. Here all spans in the state of a
parser are replaced by the empty span at the beginning, and a parser without places is shown to go on
as one with places does (`State.step_bare`). So whether a program is read, and its tree without
places, depend only on the kinds of its tokens (`State.runTokens_bare`).
-/
import Bucket.Proofs.Parsing.Moving

namespace Bucket

/-! ## Trees -/

@[simp] theorem Span.first_add_first : Span.first + Span.first = Span.first := Span.add_self _

@[simp] theorem Expression.span_bare (e : Expression) : e.bare.span = .first := by
  cases e <;> rfl

@[simp] theorem Expression.bare_withSpan (s : Span) (e : Expression) :
    (e.withSpan s).bare = e.bare := by
  cases e <;> rfl

@[simp] theorem Expression.withSpan_bare (e : Expression) :
    e.bare.withSpan .first = e.bare := by
  cases e <;> rfl

/-- A token without its place. -/
def Token.bare (t : Token) : Token := ⟨t.kind, .first⟩

namespace Parser

/-! ## States -/

/-- Class bodies without their places. -/
def Enclosing.bare : Enclosing → Enclosing
  | module done => module (done.map Declaration.bare)
  | inClass _ name done outer => inClass .first name (done.map Declaration.bare) outer.bare

/-- The first line of a method without its places. -/
def Header.bare (h : Header) : Header :=
  ⟨.first, h.name, h.arguments.map Argument.bare, h.outer.bare⟩

/-- A statement that was opened without its places. -/
def Opened.bare : Opened → Opened
  | thenPart _ condition => thenPart .first condition.bare
  | elifPart _ condition body alternatives current =>
      elifPart .first condition.bare (bareBlock body) (bareAlternatives alternatives) current.bare
  | elsePart _ condition body alternatives =>
      elsePart .first condition.bare (bareBlock body) (bareAlternatives alternatives)
  | loop _ => loop .first

/-- Blocks without their places. -/
def Block.bare : Block → Block
  | method header returns done => method header.bare (returns.map Expression.bare) (bareBlock done)
  | nested opened done outer => nested opened.bare (bareBlock done) outer.bare

/-- What an expression is for without its places. -/
def Slot.bare : Slot → Slot
  | field name _ outer => field name .first outer.bare
  | argument name _ header => argument name .first header.bare
  | returns header => returns header.bare
  | ifCondition _ block => ifCondition .first block.bare
  | elifCondition _ condition body alternatives block =>
      elifCondition .first condition.bare (bareBlock body) (bareAlternatives alternatives)
        block.bare
  | ret _ block => ret .first block.bare
  | statement block => statement block.bare

/-- An open call without its places. -/
def OpenCall.bare (c : OpenCall) : OpenCall :=
  ⟨c.brackets, c.receiver.bare, c.method, bareExpressions c.arguments⟩

/-- A waiting operator without its places. -/
def Waiting.bare : Waiting → Waiting
  | prefixOp op _ => prefixOp op .first
  | infixOp left op => infixOp left.bare op

/-- A context without its places. -/
def Context.bare : Context → Context
  | slot s => slot s.bare
  | group _ waiting outer => group .first (waiting.map Waiting.bare) outer.bare
  | arguments call waiting outer => arguments call.bare (waiting.map Waiting.bare) outer.bare

/-- A pending operand without its places. -/
def Pending.bare : Pending → Pending
  | name n _ => name n .first
  | member receiver n _ => member receiver.bare n .first
  | whole e => whole e.bare

/-- A state without its places. -/
def State.bare : State → State
  | declarations e => declarations e.bare
  | className _ outer => className .first outer.bare
  | classLine _ name outer => classLine .first name outer.bare
  | definitionLine outer => definitionLine outer.bare
  | fieldColon name _ outer => fieldColon name .first outer.bare
  | methodName _ outer => methodName .first outer.bare
  | afterMethodName h => afterMethodName h.bare
  | firstArgument h => firstArgument h.bare
  | argumentName h => argumentName h.bare
  | argumentColon name _ h => argumentColon name .first h.bare
  | afterArguments h => afterArguments h.bare
  | statements b => statements b.bare
  | statementLine b => statementLine b.bare
  | ret _ b => ret .first b.bare
  | operand waiting context => operand (waiting.map Waiting.bare) context.bare
  | memberName receiver waiting context =>
      memberName receiver.bare (waiting.map Waiting.bare) context.bare
  | pending p waiting context => pending p.bare (waiting.map Waiting.bare) context.bare

/-! ## Forgetting places is a motion -/

theorem Enclosing.bare_eq_move (e : Enclosing) : e.bare = e.move .toFirst [] := by
  induction e with
  | module done => simp [bare, move, Declaration.bare_eq_move]
  | inClass opener name done outer ih => simp [bare, move, Declaration.bare_eq_move, ih]

theorem Header.bare_eq_move (h : Header) : h.bare = h.move .toFirst [] := by
  simp [bare, move, Argument.bare_eq, Enclosing.bare_eq_move]

theorem Opened.bare_eq_move (o : Opened) : o.bare = o.move .toFirst := by
  cases o <;> simp [bare, move, Expression.bare_eq_move, bareBlock_eq_move, bareAlternatives_eq_move]

theorem Block.bare_eq_move (b : Block) : b.bare = b.move .toFirst [] := by
  induction b with
  | method header returns done =>
      simp [bare, move, Header.bare_eq_move, Expression.bare_eq, bareBlock_eq_move]
  | nested opened done outer ih => simp [bare, move, Opened.bare_eq_move, bareBlock_eq_move, ih]

theorem Slot.bare_eq_move (s : Slot) : s.bare = s.move .toFirst [] := by
  cases s <;>
    simp [bare, move, Enclosing.bare_eq_move, Header.bare_eq_move, Block.bare_eq_move,
      Expression.bare_eq_move, bareBlock_eq_move, bareAlternatives_eq_move]

theorem OpenCall.bare_eq_move (c : OpenCall) : c.bare = c.move .toFirst := by
  simp [bare, move, Expression.bare_eq_move, bareExpressions_eq_move]

theorem Waiting.bare_eq_move (w : Waiting) : w.bare = w.move .toFirst := by
  cases w <;> simp [bare, move, Expression.bare_eq_move]

theorem Context.bare_eq_move (c : Context) : c.bare = c.move .toFirst [] := by
  induction c with
  | slot s => simp [bare, move, Slot.bare_eq_move]
  | group opener waiting outer ih => simp [bare, move, Waiting.bare_eq_move, ih]
  | arguments call waiting outer ih =>
      simp [bare, move, OpenCall.bare_eq_move, Waiting.bare_eq_move, ih]

theorem Pending.bare_eq_move (p : Pending) : p.bare = p.move .toFirst := by
  cases p <;> simp [bare, move, Expression.bare_eq_move]

/-- Forgetting the places in a state is a motion. -/
theorem State.bare_eq_move (s : State) : s.bare = s.move .toFirst [] := by
  cases s <;>
    simp [bare, move, Enclosing.bare_eq_move, Header.bare_eq_move, Block.bare_eq_move,
      Waiting.bare_eq_move, Context.bare_eq_move, Pending.bare_eq_move, Expression.bare_eq_move]

/-! ## One token -/

/-- Operators that wait are applied one after the other. -/
theorem applyAll_append (e : Expression) (a b : List Waiting) :
    applyAll e (a ++ b) = applyAll (applyAll e a) b :=
  List.foldl_append

theorem PrefixOp.bare_apply (op : PrefixOp) (s : Span) (e : Expression) :
    (op.apply s e).bare = op.apply .first e.bare := by
  simp [Expression.bare_eq_move]

theorem InfixOp.bare_apply (op : InfixOp) (left right : Expression) :
    (op.apply left right).bare = op.apply left.bare right.bare := by
  simp [Expression.bare_eq_move]

theorem Pending.bare_value (p : Pending) : p.value.bare = p.bare.value := by
  rw [Expression.bare_eq_move, move_value, bare_eq_move]

/-- A parser without places goes on as one with places does. -/
theorem State.step_bare (s : State) (t : Token) :
    (s.step t).map State.bare = s.bare.step t.bare := by
  rw [funext bare_eq_move]
  exact s.step_move t

/-! ## Programs -/

/-- The state after tokens of some kinds, if they can all be read. -/
def State.reads : State → List Token.Kind → Option State
  | s, [] => some s
  | s, k :: rest => (s.step ⟨k, .first⟩).bind (·.reads rest)

@[simp] theorem State.reads_nil (s : State) : s.reads [] = some s := rfl

theorem State.reads_cons (s : State) (k : Token.Kind) (rest : List Token.Kind) :
    s.reads (k :: rest) = (s.step ⟨k, .first⟩).bind (·.reads rest) := rfl

/-- Tokens are read one piece after the other. -/
theorem State.reads_append (s : State) (a b : List Token.Kind) :
    s.reads (a ++ b) = (s.reads a).bind (·.reads b) := by
  induction a generalizing s with
  | nil => rfl
  | cons k rest ih =>
      rw [List.cons_append, reads_cons, reads_cons, Option.bind_assoc]
      exact congrArg _ (funext ih)

/-- The module without places that a program with tokens of some kinds is read as. -/
def readModule? (kinds : List Token.Kind) : Option Class :=
  (State.initial.reads kinds).bind (·.endLine.module? .first)

theorem State.module?_bare (s : State) (fileEnd : Position) :
    (s.endLine.module? fileEnd).map Class.bare = s.bare.endLine.module? .first := by
  have hmodule : ∀ e : Enclosing, ((declarations e).module? fileEnd).map Class.bare =
      (declarations e.bare).module? .first := by
    intro e
    cases e <;> simp [module?, Enclosing.bare, Class.bare, bareDeclarations_eq_map, Span.first,
      Span.point]
  cases s with
  | declarations e => exact hmodule e
  | definitionLine e => exact hmodule e
  | _ => rfl

/-- Whether tokens are read to the end, and as which tree without places, depends on their kinds
alone. -/
theorem State.runTokens_bare (s : State) (fileEnd : Position) (ts : List Token) :
    (s.runTokens fileEnd ts).toOption.map Class.bare =
      (s.bare.reads (ts.map (·.kind))).bind (·.endLine.module? .first) := by
  -- From step to step the two parsers are in the same state, but for the places.
  induction ts generalizing s with
  | nil =>
      rw [runTokens, finish, List.map_nil, reads_nil, Option.bind_some, ← module?_bare s fileEnd]
      cases h : s.endLine.module? fileEnd <;> simp [Token.endOfFile, Span.point, h, Except.toOption]
  | cons t rest ih =>
      have hstep := s.step_bare t
      rw [runTokens, List.map_cons, reads_cons, ← show t.bare = ⟨t.kind, .first⟩ from rfl,
        ← hstep]
      cases s.step t with
      | none => rfl
      | some s' => exact ih s'

end Parser

end Bucket
