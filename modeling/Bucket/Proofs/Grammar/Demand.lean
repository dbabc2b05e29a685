/-
# What a state demands of the rest

A parser in some state has begun constructs that the tokens that are left must finish. Here it is
said, by the rules of the grammar, which tokens do that so that the whole program has the
declarations `ds` (`State.Takes`). What is open around a place decides that from the innermost
construct outward.
-/
import Bucket.Proofs.Grammar.Climbing

namespace Bucket.Parser

open Grammar (Kinds Climb ClimbTail PostfixTail ExprList Head Elifs Else LineEnd ArgList Args
  ReturnType Body)

/-! ## The next token -/

/-- Whether a token is next, and the ones behind it are as demanded. -/
def Next (k : Token.Kind) (demand : Kinds → Prop) : Kinds → Prop
  | [] => False
  | k' :: i => k' = k ∧ demand i

/-- Whether a name is next, and the tokens behind it are as demanded for this name. -/
def NextName (demand : String → Kinds → Prop) : Kinds → Prop
  | .identifier n :: i => demand n i
  | _ => False

@[simp] theorem not_next_nil (k : Token.Kind) (demand : Kinds → Prop) : ¬ Next k demand [] := id

@[simp] theorem next_cons (k k' : Token.Kind) (demand : Kinds → Prop) (i : Kinds) :
    Next k demand (k' :: i) ↔ k' = k ∧ demand i := Iff.rfl

@[simp] theorem not_nextName_nil (demand : String → Kinds → Prop) : ¬ NextName demand [] := id

@[simp] theorem nextName_identifier (demand : String → Kinds → Prop) (n : String) (i : Kinds) :
    NextName demand (.identifier n :: i) ↔ demand n i := Iff.rfl

theorem exists_of_nextName {demand : String → Kinds → Prop} {k : Token.Kind} {i : Kinds}
    (h : NextName demand (k :: i)) : ∃ n, k = .identifier n ∧ demand n i := by
  cases k with
  | identifier n => exact ⟨n, rfl, h⟩
  | _ => exact h.elim

theorem not_nextName {demand : String → Kinds → Prop} {k : Token.Kind} {i : Kinds}
    (hk : ∀ n, k = .identifier n → False) : ¬ NextName demand (k :: i) := by
  intro h
  obtain ⟨n, hn, -⟩ := exists_of_nextName h
  exact hk n hn

section

variable (ds : List Declaration)

/-! ## Declarations -/

namespace Enclosing

/-- Whether the tokens that are left end the class bodies, when the innermost one has the further
declarations `more` at its end. -/
def Ends : Enclosing → List Declaration → Kinds → Prop
  | module done, more, i => i = [] ∧ ds = done ++ more
  | inClass opener name done outer, more, i =>
      Next (.keyword .endKw) (fun j => ∃ r s rest, LineEnd j r ∧ Body r s rest ∧
        outer.Ends (.classDef name (done ++ more) (opener + .first) :: rest) s) i

/-- Whether the tokens that are left are the rest of the class bodies. -/
def Takes (e : Enclosing) (i : Kinds) : Prop := ∃ more r, Body i r more ∧ e.Ends ds more r

/-- Whether a line end and the rest of the class bodies are left. -/
def TakesLine (e : Enclosing) (i : Kinds) : Prop := ∃ r, LineEnd i r ∧ e.Takes ds r

end Enclosing

/-! ## Blocks of statements -/

/-- Whether the rest of a block is left, behind a statement of it, and then its end. -/
def Resumes (ends : List Statement → Kinds → Prop) (s : Statement) (i : Kinds) : Prop :=
  ∃ rest r, Grammar.Block i r rest ∧ ends (s :: rest) r

/-- Whether further conditions and the `end` of a conditional are left, and then what is demanded for
it. -/
def Alternatives (demand : List (Expression × List Statement) → List Statement → Kinds → Prop)
    (i : Kinds) : Prop :=
  ∃ j r as otherwise, Elifs i j as ∧ Else j (.keyword .endKw :: r) otherwise ∧
    demand as otherwise r

namespace Block

/-- Whether the tokens that are left end the blocks, when the innermost one has the further
statements `more` at its end. -/
def Ends : Block → List Statement → Kinds → Prop
  | method header returns done, more, i =>
      Next (.keyword .endKw) ((header.outer.add (.method ⟨header.name, header.arguments, returns,
        done ++ more, header.opener + .first⟩)).TakesLine ds) i
  | nested (.thenPart opener condition) done outer, more, i =>
      Alternatives (fun as otherwise => Resumes outer.Ends
        (.conditional condition (done ++ more) as otherwise (opener + .first))) i
  | nested (.elifPart opener condition body alternatives current) done outer, more, i =>
      Alternatives (fun as otherwise => Resumes outer.Ends
        (.conditional condition body (alternatives ++ (current, done ++ more) :: as) otherwise
          (opener + .first))) i
  | nested (.elsePart opener condition body alternatives) done outer, more, i =>
      Next (.keyword .endKw) (Resumes outer.Ends
        (.conditional condition body alternatives (done ++ more) (opener + .first))) i
  | nested (.loop opener) done outer, more, i =>
      Next (.keyword .endKw) (Next (.symbol .newline) (Resumes outer.Ends
        (.loop (done ++ more) (opener + .first)))) i

/-- Whether the tokens that are left are the rest of the blocks. -/
def Takes (b : Block) (i : Kinds) : Prop := ∃ more r, Grammar.Block i r more ∧ b.Ends ds more r

end Block

/-! ## First lines of methods -/

namespace Header

/-- Adds some arguments. -/
def addAll (as : List Argument) (h : Header) : Header := { h with arguments := h.arguments ++ as }

/-- Whether what may follow the arguments is left, and then the body. -/
def TakesReturn (h : Header) (i : Kinds) : Prop :=
  ∃ type r, ReturnType i (.symbol .newline :: r) type ∧ (Block.method h type []).Takes ds r

/-- Whether an argument is next, and then the rest. -/
def TakesArguments (h : Header) (i : Kinds) : Prop :=
  ∃ as r, ArgList i (.symbol .closeParenthesis :: r) as ∧ (h.addAll as).TakesReturn ds r

/-- Whether what may follow the name of a method is left, and then the body. -/
def Takes (h : Header) (i : Kinds) : Prop :=
  ∃ as r, Args i r as ∧ (h.addAll as).TakesReturn ds r

end Header

/-! ## Expressions -/

/-- Whether the tokens that are left may follow an expression in its place. -/
def Slot.TakesValue (e : Expression) : Slot → Kinds → Prop
  | field name span outer =>
      Next (.symbol .newline) ((outer.add (.field ⟨name, e, span + e.span⟩)).Takes ds)
  | argument name span header => fun i =>
      Next (.symbol .comma) ((header.add ⟨name, e, span + e.span⟩).TakesArguments ds) i ∨
        Next (.symbol .closeParenthesis) ((header.add ⟨name, e, span + e.span⟩).TakesReturn ds) i
  | returns header => Next (.symbol .newline) ((Block.method header (some e) []).Takes ds)
  | ifCondition opener block =>
      Next (.symbol .newline) ((Block.nested (.thenPart opener e) [] block).Takes ds)
  | elifCondition opener condition body alternatives block =>
      Next (.symbol .newline)
        ((Block.nested (.elifPart opener condition body alternatives e) [] block).Takes ds)
  | ret span block => Next (.symbol .newline) ((block.add (.ret (some e) (span + e.span))).Takes ds)
  | statement block => Next (.symbol .newline) ((block.add (.expression e e.span)).Takes ds)

/-- Whether the tokens that are left may follow an operand that the waiting operators are applied
to, where `take` says what may follow the whole expression. -/
def TakesOperand (context : Context) (take : Expression → Kinds → Prop) :
    List Waiting → Expression → Kinds → Prop
  | [], e, i => take e i
  | w :: waiting, e, i =>
      ∃ f r, ClimbTail (neededLevel waiting context) w.followLevel (w.apply e) i r f ∧
        TakesOperand context take waiting f r

/-- Whether the tokens that are left may follow an expression that operators up to the level `follow`
may take as their left operand. -/
def TakesTail (context : Context) (take : Expression → Kinds → Prop) (waiting : List Waiting)
    (follow : Nat) (e : Expression) (i : Kinds) : Prop :=
  ∃ f r, ClimbTail (neededLevel waiting context) follow e i r f ∧
    TakesOperand context take waiting f r

/-- A pending operand in the grammar. -/
def Pending.head : Pending → Head
  | name n _ => .name n
  | member receiver n _ => .member receiver n
  | whole e => .value e

/-- Whether the tokens that are left may follow a pending operand. -/
def Pending.Takes (context : Context) (take : Expression → Kinds → Prop) (waiting : List Waiting)
    (p : Pending) (i : Kinds) : Prop :=
  ∃ h r, PostfixTail p.head i r h ∧ TakesTail context take waiting 9 h.tree r

/-- Adds some arguments. -/
def OpenCall.addAll (es : List Expression) (c : OpenCall) : OpenCall :=
  { c with arguments := c.arguments ++ es }

/-- Whether arguments and what closes them are left, and then what is demanded of the call. -/
def OpenCall.TakesArguments (demand : Pending → Kinds → Prop) (c : OpenCall) (i : Kinds) : Prop :=
  ∃ es r, ExprList i (.symbol c.brackets.closer :: r) es ∧
    demand (.whole ((c.addAll es).close .first)) r

namespace Context

/-- Whether the tokens that are left may follow an expression in its context. -/
def TakesValue : Context → Expression → Kinds → Prop
  | slot s, e, i => s.TakesValue ds e i
  | group opener waiting outer, e, i =>
      Next (.symbol .closeParenthesis) (Pending.Takes outer outer.TakesValue waiting
        (.whole (e.withSpan (opener + .first)))) i
  | arguments call waiting outer, e, i =>
      Next (.symbol call.brackets.closer) (Pending.Takes outer outer.TakesValue waiting
        (.whole ((call.add e).close .first))) i ∨
      Next (.symbol .comma)
        ((call.add e).TakesArguments (Pending.Takes outer outer.TakesValue waiting)) i

/-- Whether brackets that hold nothing yet are closed, and what is left may follow them. -/
def TakesEmpty (waiting : List Waiting) : Context → Kinds → Prop
  | arguments call outerWaiting outer, i =>
      (waiting = [] ∧ call.arguments = [] ∧ call.brackets = .round) ∧
        Next (.symbol .closeParenthesis) (Pending.Takes outer (outer.TakesValue ds) outerWaiting
          (.whole (call.close .first))) i
  | _, _ => False

/-- Whether an operand is next, and what is left may follow it. -/
def Takes (waiting : List Waiting) (context : Context) (i : Kinds) : Prop :=
  (∃ e r, Climb (neededLevel waiting context) i r e ∧
    TakesOperand context (context.TakesValue ds) waiting e r) ∨ context.TakesEmpty ds waiting i

end Context

/-! ## States -/

/-- Whether the tokens that are left are the rest of a program with the declarations `ds`. -/
def State.Takes : State → Kinds → Prop
  | declarations e => e.Takes ds
  | className opener outer =>
      NextName fun n => Next (.symbol .newline) ((Enclosing.inClass opener n [] outer).Takes ds)
  | classLine opener name outer =>
      Next (.symbol .newline) ((Enclosing.inClass opener name [] outer).Takes ds)
  | definitionLine outer => outer.TakesLine ds
  | fieldColon name span outer =>
      Next (.symbol .colon) (Context.Takes ds [] (.slot (.field name span outer)))
  | methodName opener outer => NextName fun n => (Header.mk opener n [] outer).Takes ds
  | afterMethodName h => h.Takes ds
  | firstArgument h => fun i =>
      Next (.symbol .closeParenthesis) (h.TakesReturn ds) i ∨ h.TakesArguments ds i
  | argumentName h => h.TakesArguments ds
  | argumentColon name span h =>
      Next (.symbol .colon) (Context.Takes ds [] (.slot (.argument name span h)))
  | afterArguments h => h.TakesReturn ds
  | statements b => b.Takes ds
  | statementLine b => Next (.symbol .newline) (b.Takes ds)
  | ret span b => fun i =>
      Next (.symbol .newline) ((b.add (.ret none span)).Takes ds) i ∨
        Context.Takes ds [] (.slot (.ret span b)) i
  | operand waiting context => context.Takes ds waiting
  | memberName receiver waiting context =>
      NextName fun n => Pending.Takes context (context.TakesValue ds) waiting
        (.member receiver n .first)
  | pending p waiting context => p.Takes context (context.TakesValue ds) waiting

/-- Whether a token was read, and the ones that are left are the rest of a program. -/
def AfterStep (next : Option State) (i : Kinds) : Prop := ∃ s, next = some s ∧ s.Takes ds i

variable {ds}

@[simp] theorem afterStep_some (s : State) (i : Kinds) :
    AfterStep ds (some s) i ↔ s.Takes ds i := by
  simp [AfterStep]

@[simp] theorem not_afterStep_none (i : Kinds) : ¬ AfterStep ds none i := by
  simp [AfterStep]

end

end Bucket.Parser
