/-
# Procedures and states

A parser that goes from state to state knows in each state what it has read, and what that is for. A
procedure does not know what it is called for. So for each procedure it is said in which states it may be
called, and to which states its answer leads from there (`Call.agreement`): with the tokens that are left,
a parser answers the same from both, and where the procedure fails it answers with the same fault. That a
script does as a parser does is shown along what the script does (`Follows`).
-/
import Bucket.Proofs.Descent.Levels
import Bucket.Proofs.Descent.Runs
import Bucket.Proofs.Printing.Reading

namespace Bucket.Parser

/-! ## Places for arguments and blocks -/

/-- A call some of whose arguments were read, with the place where it stands. -/
structure CallPlace (before : List Expression) where
  call : OpenCall
  waiting : List Waiting
  context : Context
  arguments_eq : call.arguments = before

namespace CallPlace

variable {before : List Expression}

/-- What the next argument is part of. -/
def inside (p : CallPlace before) : Context := .arguments p.call p.waiting p.context

/-- The state behind the call, once its brackets are closed around some arguments. -/
def closed (p : CallPlace before) (arguments : List Expression) (stop : Span) : State :=
  .pending (.whole ({ p.call with arguments := arguments }.close stop)) p.waiting p.context

end CallPlace

/-- Reads a token behind the last of the arguments in the first line of a method. -/
def stepArgument (h : Header) (t : Token) : Option State :=
  match t.kind with
  | .symbol .comma => some (.argumentName h)
  | .symbol .closeParenthesis => some (.afterArguments h)
  | _ => none

/-- A conditional statement, up to the block for the last condition so far. -/
structure Conditional where
  opener : Span
  condition : Expression
  body : List Statement
  alternatives : List (Expression × List Statement)
  outer : Block

/-- The conditional statement to which a block belongs that has a condition. -/
def Block.conditional? : Block → Option Conditional
  | nested (.thenPart opener condition) done outer => some ⟨opener, condition, done, [], outer⟩
  | nested (.elifPart opener condition body alternatives current) done outer =>
      some ⟨opener, condition, body, alternatives ++ [(current, done)], outer⟩
  | _ => none

/-- Operators of a level that group to the left are read one after the other, each behind what the ones
before were applied to. -/
structure Round (n : Nat) (r : Reader) where
  waiting : List Waiting
  context : Context
  descends : Descends context waiting
  level_le : neededLevel waiting context ≤ n
  follow : Nat
  le_follow : n ≤ follow
  operand_over : Over (n + 1) follow r.current

/-! ## What procedures and states agree on -/

/-- What a procedure and a parser that goes from state to state agree on. From each place where the
procedure may be called the parser has an answer, and what it is from there on is known by the answer of
the procedure and the reader behind it. -/
structure Agreement (α : Type) where
  Place : Type
  before : Place → Answer
  after : Place → α → Reader → Answer → Prop

namespace Agreement

variable {α P : Type}

/-- A construct that may be missing is added to what is around it. Where it is missing, its first token is
not there, and nothing is read. -/
@[reducible] def optional (state : P → State) (add : α → P → P) (begins : Token.Kind → Prop)
    (r : Reader) : Agreement (Option α) where
  Place := P
  before p := (state p).answer r
  after p found r' a :=
    match found with
    | some x => a = (state (add x p)).answer r'
    | none => r' = r ∧ ¬ begins r.current.kind

/-- A declaration. -/
@[reducible] def declaration (toDeclaration : α → Declaration) (begins : Token.Kind → Prop)
    (r : Reader) : Agreement (Option α) :=
  optional .declarations (fun x e => e.add (toDeclaration x)) begins r

/-- A statement with a block. -/
@[reducible] def compound (keyword : Keyword) (r : Reader) : Agreement (Option Statement) :=
  optional .statements Block.add (· = .keyword keyword) r

/-- An operand of a level. -/
@[reducible] def operand (n : Nat) (r : Reader) : Agreement Expression where
  Place := Room n r
  before room := room.state.answer r
  after room := Behind n room.waiting room.context

/-- Operators of a level with their right operands. -/
@[reducible] def round (n : Nat) (left : Expression) (r : Reader) : Agreement Expression where
  Place := Round n r
  before p := r.feed (stepBehind left p.follow p.waiting p.context r.current) p.context.expected
  after p := Behind n p.waiting p.context

/-- The statements of a block, some of which were read. -/
@[reducible] def statements (before : List Statement) (r : Reader) : Agreement (List Statement) where
  Place := Block
  before b := (State.statements (b.addAll before)).answer r
  after b ss r' a := Script.endsBlock r'.current = true ∧ a = (State.statements (b.addAll ss)).answer r'

end Agreement

/-- Whether a token may be the first one of a declaration. -/
def BeginsDeclaration (k : Token.Kind) : Prop :=
  k = .keyword .classKw ∨ k = .keyword .methodKw ∨ ∃ name, k = .identifier name

/-- What a call and a parser that goes from state to state agree on. -/
@[reducible] def Call.agreement : (c : Call) → Agreement c.procedure.Output
  | ⟨.program, _, r⟩ => ⟨Unit, fun _ => State.initial.answer r, fun _ m _ a => a = .ok m⟩
  | ⟨.programRound, before, r⟩ =>
      ⟨Unit, fun _ => (State.declarations (.module before)).answer r, fun _ ds r' a =>
        r'.current.isEndOfFile = true ∧ a = (State.declarations (.module ds)).answer r'⟩
  | ⟨.globalStatement, _, r⟩ => .declaration id BeginsDeclaration r
  | ⟨.classDef, _, r⟩ => .declaration Class.toDeclaration (· = .keyword .classKw) r
  | ⟨.classRound, before, r⟩ =>
      ⟨Span × String × Enclosing, fun (opener, name, outer) =>
        (State.declarations (.inClass opener name before outer)).answer r,
        fun (opener, name, outer) (ds, closer) r' a =>
          a = (State.definitionLine (outer.add (.classDef name ds (opener + closer)))).answer r'⟩
  | ⟨.methodDef, _, r⟩ => .declaration .method (· = .keyword .methodKw) r
  | ⟨.argumentRound, before, r⟩ =>
      ⟨{ h : Header // h.arguments = before }, fun h =>
        r.passName .argumentName fun name span => .argumentColon name span h,
        fun h arguments r' a => r'.current.kind ≠ .symbol .comma ∧
          a = r'.pass (.symbol .closeParenthesis) fun _ =>
            .afterArguments { h.val with arguments := arguments }⟩
  | ⟨.argument, _, r⟩ =>
      ⟨Header, fun h => r.passName .argumentName fun name span => .argumentColon name span h,
        fun h argument r' a =>
          a = r'.feed (stepArgument (h.add argument) r'.current) (.symbol .closeParenthesis)⟩
  | ⟨.fieldDecl, _, r⟩ => .declaration .field (fun k => ∃ name, k = .identifier name) r
  | ⟨.block, _, r⟩ => .statements [] r
  | ⟨.blockRound, before, r⟩ => .statements before r
  | ⟨.statement, _, r⟩ =>
      ⟨{ _b : Block // Script.endsBlock r.current = false ∧ r.current.kind ≠ .symbol .newline },
        fun b => (State.statements b).answer r, fun b s r' a =>
          a = (State.statements (b.val.add s)).answer r'⟩
  | ⟨.ifStmt, _, r⟩ => .compound .ifKw r
  | ⟨.elifRound, before, r⟩ =>
      ⟨{ p : Block × Conditional // p.1.conditional? = some p.2 ∧ p.2.alternatives = before ∧
          Script.endsBlock r.current = true }, fun p => (State.statements p.val.1).answer r,
        fun p alternatives r' a => Script.endsBlock r'.current = true ∧
          r'.current.kind ≠ .keyword .elifKw ∧
          ∃ b : Block, b.conditional? = some { p.val.2 with alternatives := alternatives } ∧
            a = (State.statements b).answer r'⟩
  | ⟨.loopStmt, _, r⟩ => .compound .doKw r
  | ⟨.expression, _, r⟩ => .operand 1 r
  | ⟨.orExpr, _, r⟩ => .operand 2 r
  | ⟨.andExpr, _, r⟩ => .operand 3 r
  | ⟨.equalityExpr, _, r⟩ => .operand 4 r
  | ⟨.comparisonExpr, _, r⟩ => .operand 5 r
  | ⟨.additiveExpr, _, r⟩ => .operand 6 r
  | ⟨.additiveRound, left, r⟩ => .round 6 left r
  | ⟨.multiplicativeExpr, _, r⟩ => .operand 7 r
  | ⟨.multiplicativeRound, left, r⟩ => .round 7 left r
  | ⟨.unaryExpr, _, r⟩ => .operand 8 r
  | ⟨.powerExpr, _, r⟩ => .operand 9 r
  | ⟨.postfixExpr, _, r⟩ => .operand 10 r
  | ⟨.postfixRound, value, r⟩ =>
      ⟨List Waiting × Context, fun (waiting, context) =>
        (State.pending (.whole value) waiting context).answer r,
        fun (waiting, context) => Behind 10 waiting context⟩
  | ⟨.primaryExpr, _, r⟩ =>
      ⟨Room 10 r, fun room => room.state.answer r, fun room e r' a =>
        a = (State.pending (.whole e) room.waiting room.context).answer r'⟩
  | ⟨.arguments, (brackets, mayBeEmpty), r⟩ =>
      ⟨{ p : CallPlace [] // p.call.brackets = brackets ∧ (mayBeEmpty = true ↔ brackets = .round) },
        fun p => (State.operand [] p.val.inside).answer r, fun p (arguments, stop) r' a =>
          a = (p.val.closed arguments stop).answer r'⟩
  | ⟨.argumentsRound, before, r⟩ =>
      ⟨{ p : CallPlace before // closeEmpty r.current [] p.inside = none },
        fun p => (State.operand [] p.val.inside).answer r, fun p arguments r' a =>
          r'.current.kind ≠ .symbol .comma ∧
            a = r'.pass (.symbol p.val.call.brackets.closer) (p.val.closed arguments)⟩

/-- What is said of the result of a call: it agrees with a parser from all places where the call may
stand. -/
def Call.agreed (c : Call) : Post c.procedure.Output where
  ok b r' := ∀ p, c.agreement.after p b r' (c.agreement.before p)
  error d := ∀ p, c.agreement.before p = .error d

/-! ## Scripts that do as a parser does -/

/-- Whether a parser that answers something answers the same behind what a script reads, as is said there,
and has the fault of the script if it fails. -/
def Follows (a : Answer) {α : Type} (m : Script α) (r : Reader) (Q : α → Reader → Answer → Prop) :
    Prop :=
  m.Ensures (fun _ => True) Call.agreed r ⟨fun b r' => Q b r' a, fun d => a = .error d⟩

namespace Follows

variable {α β : Type} {a : Answer} {r : Reader} {Q : α → Reader → Answer → Prop}

theorem done {b : α} (h : Q b r a) : Follows a (pure b) r Q := h

theorem bind {m : Script β} {k : β → Script α} {P : β → Reader → Answer → Prop}
    (hm : Follows a m r P) (hk : ∀ b r', P b r' a → Follows a (k b) r' Q) :
    Follows a (m >>= k) r Q := by
  rw [Follows, Script.ensures_bind]
  exact hm.imp hk fun _ => id

theorem weaken {m : Script α} {P : α → Reader → Answer → Prop} (hm : Follows a m r P)
    (h : ∀ b r', P b r' a → Q b r' a) : Follows a m r Q :=
  hm.imp h fun _ => id

theorem current : Follows a Script.current r fun t r' _ => r.current = t ∧ r = r' := ⟨rfl, rfl⟩

/-- A parser that finds no place for a token fails as a script does that expects something else. -/
theorem expected {e : Expectation} (h : a = r.feed none e) :
    Follows a (Script.expected e : Script α) r Q :=
  (Script.ensures_expected e).2 h

/-- A parser that goes on behind a token does as a script that moves on. -/
theorem advance {s : State} (h : a = r.goOn s) :
    Follows a Script.advance r fun _ r' a => a = s.answer r' := by
  refine Script.ensures_advance.2 ⟨fun r' hr' => ?_, fun d hd => ?_⟩
  · rw [h, Reader.goOn, hr']
    rfl
  · rw [h, Reader.goOn, hd]
    rfl

/-- A call agrees with a parser from a place where it may stand. -/
theorem call (p : Procedure) (input : p.Input) (place : (Call.agreement ⟨p, input, r⟩).Place)
    (h : a = (Call.agreement ⟨p, input, r⟩).before place) :
    Follows a (Script.perform p input) r ((Call.agreement ⟨p, input, r⟩).after place) := by
  refine Script.ensures_perform.2 ⟨trivial, fun b r' hb => ?_, fun d hd => ?_⟩
  · rw [h]
    exact hb place
  · rw [h]
    exact hd place

/-- A token of a kind is passed where it is read, and nothing happens at any other token. -/
theorem branch {k : Token.Kind} {rest : Option Span → Script α}
    (hsome : r.current.kind = k → ∃ s : State, a = r.goOn s ∧
      ∀ r', a = s.answer r' → Follows a (rest (some r.current.span)) r' Q)
    (hnone : r.current.kind ≠ k → Follows a (rest none) r Q) :
    Follows a (Script.accept [k] >>= rest) r Q := by
  refine (Script.ensures_bind _ _).2 (Script.ensures_accept.2 ⟨fun hk => ?_, fun hk => ?_⟩)
  · obtain ⟨s, hs, hrest⟩ := hsome (List.mem_singleton.1 hk)
    have hadvance := Script.ensures_advance.1 (advance hs)
    exact ⟨fun r' hr' => hrest r' (hadvance.1 r' hr'), hadvance.2⟩
  · exact hnone fun h => hk (List.mem_singleton.2 h)

/-- A token of a kind is passed where it is needed. -/
theorem expectKind {k : Token.Kind} {s : Span → State} (h : a = r.pass k s) :
    Follows a (Script.expectKind k) r fun span r' a => a = (s span).answer r' := by
  rw [Reader.pass] at h
  refine branch (fun hk => ?_) fun hk => expected ?_
  · rw [if_pos hk] at h
    exact ⟨_, h, fun r' hr' => hr'⟩
  · rw [if_neg hk] at h
    exact h

/-- A name is passed where it is read, and nothing happens at any other token. -/
theorem identifier {rest : Option (String × Span) → Script α}
    (hsome : ∀ name, r.current.kind = .identifier name → ∃ s : State, a = r.goOn s ∧
      ∀ r', a = s.answer r' → Follows a (rest (some (name, r.current.span))) r' Q)
    (hnone : (∀ name, r.current.kind ≠ .identifier name) → Follows a (rest none) r Q) :
    Follows a (Script.identifier >>= rest) r Q := by
  refine bind (P := fun named r' a => Follows a (rest named) r' Q) (current.bind ?_) fun _ _ h => h
  rintro _ _ ⟨rfl, rfl⟩
  split
  · rename_i name hname
    obtain ⟨s, hs, hrest⟩ := hsome name hname
    exact (advance hs).bind fun _ r' hr' => hrest r' hr'
  · rename_i hname
    exact hnone hname

/-- A name is passed where it is needed. -/
theorem expectIdentifier {e : Expectation} {s : String → Span → State} (h : a = r.passName e s) :
    Follows a (Script.expectIdentifier e) r fun named r' a =>
      a = (s named.1 named.2).answer r' := by
  rw [Reader.passName] at h
  refine identifier (fun name hname => ?_) fun hnone => expected ?_
  · rw [hname] at h
    exact ⟨_, h, fun r' hr' => hr'⟩
  · split at h
    · rename_i name hname
      exact absurd hname (hnone name)
    · exact h

/-- An operator is passed where it is read, and nothing happens at any other token. -/
theorem operator {ops : List (Token.Kind × β)} {rest : Option β → Script α}
    (hsome : ∀ op, (r.current.kind, op) ∈ ops → ∃ s : State, a = r.goOn s ∧
      ∀ r', a = s.answer r' → Follows a (rest (some op)) r' Q)
    (hnone : (∀ op, (r.current.kind, op) ∉ ops) → Follows a (rest none) r Q) :
    Follows a (Script.operator ops >>= rest) r Q := by
  refine bind (P := fun op r' a => Follows a (rest op) r' Q) ?_ fun _ _ h => h
  induction ops with
  | nil => exact hnone fun op => List.not_mem_nil
  | cons first others ih =>
      obtain ⟨k, op⟩ := first
      refine branch (fun hk => ?_) fun hk => ih ?_ fun hothers => ?_
      · exact hsome op (by simp [hk])
      · exact fun op' hop' => hsome op' (List.mem_cons_of_mem _ hop')
      · refine hnone fun op' hop' => ?_
        rcases List.mem_cons.1 hop' with h | h
        · exact hk (Prod.mk.inj h).1
        · exact hothers op' h

end Follows

end Bucket.Parser
