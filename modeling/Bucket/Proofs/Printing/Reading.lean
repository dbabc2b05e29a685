/-
# Reading what was printed

A parser that reads the tokens of a printed tree arrives at that tree without places. There is one
exception: the first line of a method has no place for an assignment, so a type there that is an
assignment is printed as tokens that cannot be read (`Declaration.reads_lines`).
-/
import Bucket.Proofs.Printing.Text

namespace Bucket

open Bucket.Parser

/-! ## Expressions -/

/-- The tokens that an expression is printed as. -/
def Expression.kinds (e : Expression) : List Token.Kind := kindsOf e.pieces

namespace Parser

/-- Whether a token ends an expression in every context. -/
def EndsOperand (k : Token.Kind) : Prop :=
  k = .symbol .newline ∨ k = .symbol .comma ∨ k = .symbol .closeParenthesis

/-- A token that ends an expression hands it on. -/
theorem stepPending_of_endsOperand {k : Token.Kind} (hk : EndsOperand k) (p : Pending)
    (waiting : List Waiting) (context : Context) :
    stepPending p waiting context ⟨k, .first⟩ =
      context.deliver (applyAll p.value waiting) ⟨k, .first⟩ := by
  rcases hk with rfl | rfl | rfl <;> rfl

/-- Whether an assignment may stand where an operand is expected. -/
def AdmitsAssignment (waiting : List Waiting) (context : Context) : Prop :=
  context.level ≤ InfixOp.assign.level ∧ ∀ w ∈ waiting.head?, w.operandLevel ≤ InfixOp.assign.level

/-- Where an assignment may stand, an equals sign takes no operator from the left. -/
theorem stepInfix_assign {waiting : List Waiting} {context : Context}
    (h : AdmitsAssignment waiting context) (e : Expression) :
    stepInfix .assign e waiting context =
      some (.operand (.infixOp e .assign :: waiting) context) := by
  have htighter : applyTighter InfixOp.assign.level e 9 waiting = (e, waiting, 9) := by
    cases waiting with
    | nil => rfl
    | cons w rest =>
        have hw : ¬ InfixOp.assign.level < w.operandLevel := Nat.not_lt.2 (h.2 w rfl)
        rw [applyTighter, if_neg hw]
  have hlevel : context.level ≤ InfixOp.assign.level ∧ InfixOp.assign.level ≤ 9 := ⟨h.1, by decide⟩
  simp only [stepInfix, htighter, hlevel, and_self, if_true]

/-- Whether the tokens of an expression lead to an operand and some assignments that wait for it,
wherever an operand is expected. -/
structure LeadsTo (e : Expression) (p : Pending) (assignments : List Waiting) : Prop where
  value : applyAll p.value assignments = e.bare
  eq_nil : e.parenthesizedTarget = false → assignments = []
  reads : ∀ waiting context, (e.parenthesizedTarget = true → AdmitsAssignment waiting context) →
    (State.operand waiting context).reads e.kinds =
      some (.pending p (assignments ++ waiting) context)

namespace LeadsTo

variable {e : Expression} {p : Pending} {assignments : List Waiting}

/-- An expression that is over is handed on. -/
theorem reads_end (h : LeadsTo e p assignments) {k : Token.Kind} (hk : EndsOperand k)
    (context : Context)
    (hcontext : e.parenthesizedTarget = true → context.level ≤ InfixOp.assign.level) :
    (State.operand [] context).reads (e.kinds ++ [k]) = context.deliver e.bare ⟨k, .first⟩ := by
  have hadmits : e.parenthesizedTarget = true → AdmitsAssignment [] context := fun htarget =>
    ⟨hcontext htarget, by simp⟩
  rw [State.reads_append, h.reads [] context hadmits, Option.bind_some, State.reads_cons,
    State.step, stepPending_of_endsOperand hk, List.append_nil, h.value]
  exact Option.bind_fun_some _

/-- An expression in parentheses is an operand. -/
theorem reads_inParentheses (h : LeadsTo e p assignments) (waiting : List Waiting)
    (context : Context) :
    (State.operand waiting context).reads (kindsOf (inParentheses e.pieces)) =
      some (.pending (.whole e.bare) waiting context) := by
  have hinside := h.reads_end (k := .symbol .closeParenthesis) (.inr (.inr rfl))
    (.group .first waiting context) fun _ => Nat.le_refl 1
  have hkinds : kindsOf (inParentheses e.pieces) =
      .symbol .openParenthesis :: (e.kinds ++ [Token.Kind.symbol .closeParenthesis]) := by
    simp [inParentheses, Expression.kinds]
  rw [hkinds]
  refine hinside.trans ?_
  show some (State.pending (.whole (e.bare.withSpan (.first + .first))) waiting context) = _
  rw [Span.first_add_first, Expression.withSpan_bare]

/-- An expression that has parentheses where it is an assignment is an operand. -/
theorem reads_guarded (h : LeadsTo e p assignments) (needed : Bool)
    (hneeded : e.parenthesizedTarget = true → needed = true) :
    ∃ q : Pending, q.value = e.bare ∧ ∀ waiting context,
      (State.operand waiting context).reads (kindsOf (Expression.guarded needed e.pieces)) =
        some (.pending q waiting context) := by
  cases needed with
  | true => exact ⟨.whole e.bare, rfl, h.reads_inParentheses⟩
  | false =>
      have htarget : e.parenthesizedTarget = false :=
        Bool.eq_false_iff.2 fun ht => absurd (hneeded ht) (by decide)
      obtain rfl := h.eq_nil htarget
      refine ⟨p, h.value, fun waiting context => ?_⟩
      exact h.reads waiting context fun ht => by simp [ht] at htarget

end LeadsTo

end Parser

theorem Expression.parenthesizedReceiver_of_target {e : Expression}
    (h : e.parenthesizedTarget = true) : e.parenthesizedReceiver = true := by
  cases e with
  | assignment left right span => rfl
  | _ => simp [parenthesizedTarget] at h

mutual

/-- The tokens of an expression lead to it. -/
theorem Expression.exists_leadsTo : ∀ e : Expression, ∃ p assignments, LeadsTo e p assignments
  | .identifier n _ =>
      ⟨.name n .first, [], ⟨rfl, fun _ => rfl, fun _ _ _ => rfl⟩⟩
  | .literal v _ =>
      ⟨.whole (.literal v .first), [], ⟨rfl, fun _ => rfl, fun _ _ _ => rfl⟩⟩
  | .call receiver method arguments span => by
      obtain ⟨p, assignments, hreceiver⟩ := Expression.exists_leadsTo receiver
      obtain ⟨q, hq, hreads⟩ := hreceiver.reads_guarded
        receiver.parenthesizedReceiver Expression.parenthesizedReceiver_of_target
      refine ⟨.whole (Expression.call receiver method arguments span).bare, [], rfl,
        fun _ => rfl, fun waiting context _ => ?_⟩
      have harguments := reads_arguments arguments ⟨.round, receiver.bare, method, []⟩ waiting
        context rfl fun _ => rfl
      have hkinds : (Expression.call receiver method arguments span).kinds =
          kindsOf (Expression.guarded receiver.parenthesizedReceiver receiver.pieces) ++
            .symbol .period :: .identifier method :: .symbol .openParenthesis ::
              (kindsOf (separated (piecesOfExpressions arguments)) ++
                [Token.Kind.symbol .closeParenthesis]) := by
        simp [Expression.kinds, Expression.pieces, inParentheses]
      have hopen : ∀ kinds, (State.pending q waiting context).reads
          (.symbol .period :: .identifier method :: .symbol .openParenthesis :: kinds) =
          (State.operand [] (.arguments ⟨.round, q.value, method, []⟩ waiting context)).reads
            kinds := fun _ => rfl
      rw [hkinds, State.reads_append, hreads, Option.bind_some, hopen, hq, harguments]
      simp [OpenCall.close, Expression.bare]
  | .assignment left right span => by
      obtain ⟨p, assignments, hleft⟩ := Expression.exists_leadsTo left
      obtain ⟨q, hq, hreads⟩ := hleft.reads_guarded left.parenthesizedTarget id
      obtain ⟨p', assignments', hright⟩ := Expression.exists_leadsTo right
      -- The left side waits below whatever waits inside the right side.
      refine ⟨p', assignments' ++ [.infixOp left.bare .assign], ⟨?_, ?_, ?_⟩⟩
      · have happend := applyAll_append p'.value assignments' [.infixOp left.bare .assign]
        rw [happend, hright.value]
        simp [applyAll, Waiting.apply, InfixOp.apply, Expression.bare]
      · intro htarget
        simp [Expression.parenthesizedTarget] at htarget
      · intro waiting context hadmits
        have hadmits := hadmits rfl
        have hkinds : (Expression.assignment left right span).kinds =
            kindsOf (Expression.guarded left.parenthesizedTarget left.pieces) ++
              .symbol .equals :: right.kinds := by
          simp [Expression.kinds, Expression.pieces]
        have hnext := hright.reads (.infixOp left.bare .assign :: waiting) context fun _ =>
          ⟨hadmits.1, by rintro w ⟨⟩; exact Nat.le_refl 1⟩
        have hequals : ∀ kinds, (State.pending q waiting context).reads
            (.symbol .equals :: kinds) =
            (stepInfix .assign q.value waiting context).bind (·.reads kinds) := fun _ => rfl
        rw [hkinds, State.reads_append, hreads, Option.bind_some, hequals, hq,
          stepInfix_assign hadmits, Option.bind_some, hnext, List.append_assoc,
          List.singleton_append]

/-- The tokens of arguments and the parenthesis behind them lead to the call. -/
theorem reads_arguments : ∀ (es : List Expression) (call : OpenCall) (waiting : List Waiting)
    (context : Context), call.brackets = .round → (es = [] → call.arguments = []) →
    (State.operand [] (.arguments call waiting context)).reads
        (kindsOf (separated (piecesOfExpressions es)) ++ [Token.Kind.symbol .closeParenthesis]) =
      some (.pending (.whole (OpenCall.close .first
        { call with arguments := call.arguments ++ bareExpressions es })) waiting context)
  | [], call, waiting, context, hround, hempty => by
      obtain ⟨brackets, receiver, method, arguments⟩ := call
      obtain rfl : arguments = [] := hempty rfl
      obtain rfl : brackets = .round := hround
      rfl
  | [e], call, waiting, context, hround, _ => by
      obtain ⟨p, assignments, he⟩ := Expression.exists_leadsTo e
      have hclose := he.reads_end (k := .symbol .closeParenthesis) (.inr (.inr rfl))
        (.arguments call waiting context) fun _ => Nat.le_refl 1
      refine hclose.trans ?_
      simp [Context.deliver, hround, Brackets.closer, OpenCall.add, bareExpressions]
  | e :: e' :: rest, call, waiting, context, hround, _ => by
      obtain ⟨p, assignments, he⟩ := Expression.exists_leadsTo e
      have hcomma := he.reads_end (k := .symbol .comma) (.inr (.inl rfl))
        (.arguments call waiting context) fun _ => Nat.le_refl 1
      have hrest := reads_arguments (e' :: rest) (call.add e.bare) waiting context hround
        fun h => by simp at h
      have hkinds : kindsOf (separated (piecesOfExpressions (e :: e' :: rest))) ++
          [Token.Kind.symbol .closeParenthesis] = (e.kinds ++ [Token.Kind.symbol .comma]) ++
            (kindsOf (separated (piecesOfExpressions (e' :: rest))) ++
              [Token.Kind.symbol .closeParenthesis]) := by
        simp [piecesOfExpressions, separated, Expression.kinds]
      rw [hkinds, State.reads_append, hcomma]
      refine hrest.trans ?_
      simp [OpenCall.add, bareExpressions]

end

/-! ## Where expressions begin and end -/

namespace Parser

/-- Whether a token begins a printed expression. -/
def BeginsOperand (k : Token.Kind) : Prop :=
  (∃ n, k = .identifier n) ∨ (∃ v, k = .literal v) ∨ k = .symbol .openParenthesis

end Parser

namespace Expression

/-- A printed expression begins with a name, a literal or a parenthesis. -/
theorem exists_kinds_eq_cons : ∀ e : Expression, ∃ k rest, e.kinds = k :: rest ∧ BeginsOperand k
  | identifier n _ => ⟨_, _, rfl, .inl ⟨n, rfl⟩⟩
  | literal v _ => ⟨_, _, rfl, .inr (.inl ⟨v, rfl⟩)⟩
  | call receiver method arguments _ => by
      rw [kinds, pieces, kindsOf_append]
      cases receiver.parenthesizedReceiver with
      | true => exact ⟨_, _, rfl, .inr (.inr rfl)⟩
      | false =>
          obtain ⟨k, rest, hk, hbegins⟩ := exists_kinds_eq_cons receiver
          exact ⟨k, _, congrArg (· ++ _) hk, hbegins⟩
  | assignment left right _ => by
      rw [kinds, pieces, kindsOf_append]
      cases left.parenthesizedTarget with
      | true => exact ⟨_, _, rfl, .inr (.inr rfl)⟩
      | false =>
          obtain ⟨k, rest, hk, hbegins⟩ := exists_kinds_eq_cons left
          exact ⟨k, _, congrArg (· ++ _) hk, hbegins⟩

/-- Where a token of an expression is read like that of an operand, so is the expression. -/
theorem reads_begin {s : State} {context : Context}
    (h : ∀ k, BeginsOperand k → s.step ⟨k, .first⟩ = stepOperand [] context ⟨k, .first⟩)
    (e : Expression) (rest : List Token.Kind) :
    s.reads (e.kinds ++ rest) = (State.operand [] context).reads (e.kinds ++ rest) := by
  obtain ⟨k, ks, hk, hbegins⟩ := e.exists_kinds_eq_cons
  rw [hk, List.cons_append, State.reads_cons, State.reads_cons, h k hbegins]
  rfl

/-- An expression is handed on where an assignment may stand. -/
theorem reads_end (e : Expression) {k : Token.Kind} (hk : EndsOperand k) (context : Context)
    (hlevel : context.level ≤ InfixOp.assign.level) :
    (State.operand [] context).reads (e.kinds ++ [k]) = context.deliver e.bare ⟨k, .first⟩ := by
  obtain ⟨p, assignments, he⟩ := e.exists_leadsTo
  exact he.reads_end hk context fun _ => hlevel

/-- Where no assignment may stand, all other expressions are handed on. -/
theorem reads_end_of_lt (e : Expression) {k : Token.Kind} (hk : EndsOperand k) (context : Context)
    (hlevel : InfixOp.assign.level < context.level) :
    (State.operand [] context).reads (e.kinds ++ [k]) =
      if e.parenthesizedTarget then none else context.deliver e.bare ⟨k, .first⟩ := by
  cases htarget : e.parenthesizedTarget with
  | false =>
      obtain ⟨p, assignments, he⟩ := e.exists_leadsTo
      exact he.reads_end hk context fun ht => by simp [ht] at htarget
  | true =>
      cases e with
      | assignment left right span =>
          obtain ⟨p, assignments, hleft⟩ := left.exists_leadsTo
          obtain ⟨q, -, hreads⟩ := hleft.reads_guarded left.parenthesizedTarget id
          have hkinds : (assignment left right span).kinds =
              kindsOf (guarded left.parenthesizedTarget left.pieces) ++
                .symbol .equals :: right.kinds := by
            simp [kinds, pieces]
          -- The equals sign is refused, whatever stands behind it.
          have hstep : stepInfix .assign q.value [] context = none := by
            simp [stepInfix, applyTighter, Nat.not_le.2 hlevel]
          rw [hkinds, List.append_assoc, State.reads_append, hreads, Option.bind_some,
            List.cons_append, State.reads_cons]
          show (stepInfix .assign q.value [] context).bind _ = none
          rw [hstep, Option.bind_none]
      | _ => simp [parenthesizedTarget] at htarget

end Expression

/-! ## Statements -/

/-- The tokens that lines are printed as. -/
def kindsOfLines (ls : List Line) : List Token.Kind := ls.flatMap Line.kinds

@[simp] theorem kindsOfLines_nil : kindsOfLines [] = [] := rfl

@[simp] theorem kindsOfLines_cons (depth : Nat) (ps : List Piece) (ls : List Line) :
    kindsOfLines (⟨depth, ps⟩ :: ls) = kindsOf ps ++ .symbol .newline :: kindsOfLines ls := by
  simp [kindsOfLines, Line.kinds, kindsOf]

@[simp] theorem kindsOfLines_append (a b : List Line) :
    kindsOfLines (a ++ b) = kindsOfLines a ++ kindsOfLines b :=
  List.flatMap_append

namespace Parser

/-- A block with further statements. -/
def Block.addAll (ss : List Statement) (b : Block) : Block := ss.foldl (fun b s => b.add s) b

theorem Block.addAll_nested (ss : List Statement) (opened : Opened) (done : List Statement)
    (outer : Block) :
    (Block.nested opened done outer).addAll ss = .nested opened (done ++ ss) outer := by
  induction ss generalizing done with
  | nil => rw [List.append_nil]; rfl
  | cons s rest ih =>
      have := ih (done ++ [s])
      rwa [List.append_assoc, List.singleton_append] at this

theorem Block.addAll_method (ss : List Statement) (header : Header) (returns : Option Expression)
    (done : List Statement) :
    (Block.method header returns done).addAll ss = .method header returns (done ++ ss) := by
  induction ss generalizing done with
  | nil => rw [List.append_nil]; rfl
  | cons s rest ih =>
      have := ih (done ++ [s])
      rwa [List.append_assoc, List.singleton_append] at this

/-- Class bodies with further declarations in the innermost one. -/
def Enclosing.addAll (ds : List Declaration) (e : Enclosing) : Enclosing :=
  ds.foldl (fun e d => e.add d) e

theorem Enclosing.addAll_inClass (ds : List Declaration) (opener : Span) (name : String)
    (done : List Declaration) (outer : Enclosing) :
    (Enclosing.inClass opener name done outer).addAll ds =
      .inClass opener name (done ++ ds) outer := by
  induction ds generalizing done with
  | nil => rw [List.append_nil]; rfl
  | cons d rest ih =>
      have := ih (done ++ [d])
      rwa [List.append_assoc, List.singleton_append] at this

theorem Enclosing.addAll_module (ds done : List Declaration) :
    (Enclosing.module done).addAll ds = .module (done ++ ds) := by
  induction ds generalizing done with
  | nil => rw [List.append_nil]; rfl
  | cons d rest ih =>
      have := ih (done ++ [d])
      rwa [List.append_assoc, List.singleton_append] at this

/-- The parts of a conditional up to the block that is being read: where it began, its first
condition and body, and the further ones. -/
inductive HasParts : Opened → List Statement → Span → Expression → List Statement →
    List (Expression × List Statement) → Prop where
  | thenPart (opener : Span) (condition : Expression) (done : List Statement) :
      HasParts (.thenPart opener condition) done opener condition done []
  | elifPart (opener : Span) (condition : Expression) (body : List Statement)
      (alternatives : List (Expression × List Statement)) (current : Expression)
      (done : List Statement) :
      HasParts (.elifPart opener condition body alternatives current) done opener condition body
        (alternatives ++ [(current, done)])

namespace HasParts

variable {opened : Opened} {done body : List Statement} {opener : Span} {condition : Expression}
  {alternatives : List (Expression × List Statement)}

theorem elif (h : HasParts opened done opener condition body alternatives) (outer : Block) :
    (Block.nested opened done outer).elif =
      some (.operand [] (.slot (.elifCondition opener condition body alternatives outer))) := by
  cases h <;> rfl

theorem otherwise (h : HasParts opened done opener condition body alternatives) (outer : Block) :
    (Block.nested opened done outer).otherwise =
      some (.statementLine (.nested (.elsePart opener condition body alternatives) [] outer)) := by
  cases h <;> rfl

theorem close (h : HasParts opened done opener condition body alternatives) (outer : Block)
    (t : Token) :
    (Block.nested opened done outer).close t =
      .statements (outer.add (.conditional condition body alternatives [] (opener + t.span))) := by
  cases h <;> rfl

end HasParts

/-- An expression begins a statement as it begins elsewhere. -/
theorem step_statements_of_begins (b : Block) (k : Token.Kind) (hk : BeginsOperand k) :
    (State.statements b).step ⟨k, .first⟩ =
      stepOperand [] (.slot (.statement b)) ⟨k, .first⟩ := by
  rcases hk with ⟨n, rfl⟩ | ⟨v, rfl⟩ | rfl <;> rfl

/-- A value begins behind its keyword as it begins elsewhere. -/
theorem step_ret_of_begins (b : Block) (k : Token.Kind) (hk : BeginsOperand k) :
    (State.ret .first b).step ⟨k, .first⟩ =
      stepOperand [] (.slot (.ret .first b)) ⟨k, .first⟩ := by
  rcases hk with ⟨n, rfl⟩ | ⟨v, rfl⟩ | rfl <;> rfl

end Parser

mutual

/-- The lines of a statement are read as that statement. -/
theorem Statement.reads_lines : ∀ (s : Statement) (depth : Nat) (b : Block),
    (State.statements b).reads (kindsOfLines (s.lines depth)) = some (.statements (b.add s.bare))
  | .conditional condition body alternatives otherwise span, depth, b => by
      have hcondition := condition.reads_end (k := .symbol .newline) (.inl rfl)
        (.slot (.ifCondition .first b)) (Nat.le_refl 1)
      have hbody := reads_linesOfBlock body (depth + 1)
        (.nested (.thenPart .first condition.bare) [] b)
      rw [Block.addAll_nested, List.nil_append] at hbody
      obtain ⟨opened, done, hparts, halternatives⟩ := reads_linesOfAlternatives alternatives depth b
        (HasParts.thenPart .first condition.bare (bareBlock body))
      have hotherwise := reads_linesOfOtherwise otherwise depth b hparts
      have hkinds : kindsOfLines (Statement.lines depth
          (.conditional condition body alternatives otherwise span)) =
          .keyword .ifKw :: ((condition.kinds ++ [Token.Kind.symbol .newline]) ++
            (kindsOfLines (linesOfBlock (depth + 1) body) ++
              (kindsOfLines (linesOfAlternatives depth alternatives) ++
                kindsOfLines (linesOfOtherwise depth otherwise ++ [Line.close depth])))) := by
        simp [Statement.lines, Expression.kinds]
      have hif : ∀ kinds, (State.statements b).reads (.keyword .ifKw :: kinds) =
          (State.operand [] (.slot (.ifCondition .first b))).reads kinds := fun _ => rfl
      rw [hkinds, hif, State.reads_append, hcondition]
      show (State.statements (.nested (.thenPart .first condition.bare) [] b)).reads _ = _
      rw [State.reads_append, hbody, Option.bind_some, State.reads_append, halternatives,
        Option.bind_some, hotherwise]
      rfl
  | .loop body span, depth, b => by
      have hbody := reads_linesOfBlock body (depth + 1) (.nested (.loop .first) [] b)
      rw [Block.addAll_nested, List.nil_append] at hbody
      have hkinds : kindsOfLines (Statement.lines depth (.loop body span)) =
          .keyword .doKw :: .symbol .newline ::
            (kindsOfLines (linesOfBlock (depth + 1) body) ++
              [Token.Kind.keyword .endKw, .symbol .newline]) := by
        simp [Statement.lines, Line.close]
      have hdo : ∀ kinds, (State.statements b).reads
          (.keyword .doKw :: .symbol .newline :: kinds) =
          (State.statements (.nested (.loop .first) [] b)).reads kinds := fun _ => rfl
      rw [hkinds, hdo, State.reads_append, hbody]
      rfl
  | .leave _, depth, b => rfl
  | .cycle _, depth, b => rfl
  | .ret none _, depth, b => rfl
  | .ret (some value) span, depth, b => by
      have hvalue := value.reads_end (k := .symbol .newline) (.inl rfl)
        (.slot (.ret .first b)) (Nat.le_refl 1)
      have hkinds : kindsOfLines (Statement.lines depth (.ret (some value) span)) =
          .keyword .retKw :: (value.kinds ++ [Token.Kind.symbol .newline]) := by
        simp [Statement.lines, Expression.kinds]
      have hret : ∀ kinds, (State.statements b).reads (.keyword .retKw :: kinds) =
          (State.ret .first b).reads kinds := fun _ => rfl
      rw [hkinds, hret, Expression.reads_begin (step_ret_of_begins b), hvalue]
      simp [Context.deliver, Slot.deliver, Statement.bare]
  | .expression value span, depth, b => by
      have hvalue := value.reads_end (k := .symbol .newline) (.inl rfl)
        (.slot (.statement b)) (Nat.le_refl 1)
      have hkinds : kindsOfLines (Statement.lines depth (.expression value span)) =
          value.kinds ++ [Token.Kind.symbol .newline] := by
        simp [Statement.lines, Expression.kinds]
      rw [hkinds, Expression.reads_begin (step_statements_of_begins b), hvalue]
      simp [Context.deliver, Slot.deliver, Statement.bare]

/-- The lines of statements are read as those statements. -/
theorem reads_linesOfBlock : ∀ (ss : List Statement) (depth : Nat) (b : Block),
    (State.statements b).reads (kindsOfLines (linesOfBlock depth ss)) =
      some (.statements (b.addAll (bareBlock ss)))
  | [], _, _ => rfl
  | s :: rest, depth, b => by
      rw [linesOfBlock, kindsOfLines_append, State.reads_append, s.reads_lines depth b,
        Option.bind_some, reads_linesOfBlock rest depth]
      rfl

/-- The lines of further conditions and their bodies are read as those. -/
theorem reads_linesOfAlternatives : ∀ (as : List (Expression × List Statement)) (depth : Nat)
    (outer : Block) {opened : Opened} {done body : List Statement} {condition : Expression}
    {alternatives : List (Expression × List Statement)},
    HasParts opened done .first condition body alternatives →
    ∃ opened' done',
      HasParts opened' done' .first condition body (alternatives ++ bareAlternatives as) ∧
      (State.statements (.nested opened done outer)).reads
          (kindsOfLines (linesOfAlternatives depth as)) =
        some (.statements (.nested opened' done' outer))
  | [], depth, outer, opened, done, body, condition, alternatives, h => by
      refine ⟨opened, done, ?_, rfl⟩
      rwa [bareAlternatives, List.append_nil]
  | (current, currentBody) :: rest, depth, outer, opened, done, body, condition, alternatives,
      h => by
      have hcurrent := current.reads_end (k := .symbol .newline) (.inl rfl)
        (.slot (.elifCondition .first condition body alternatives outer)) (Nat.le_refl 1)
      have hbody := reads_linesOfBlock currentBody (depth + 1)
        (.nested (.elifPart .first condition body alternatives current.bare) [] outer)
      rw [Block.addAll_nested, List.nil_append] at hbody
      obtain ⟨opened', done', hparts, hrest⟩ := reads_linesOfAlternatives rest depth outer
        (HasParts.elifPart .first condition body alternatives current.bare (bareBlock currentBody))
      refine ⟨opened', done', ?_, ?_⟩
      · rwa [List.append_assoc, List.singleton_append] at hparts
      · have hkinds : kindsOfLines (linesOfAlternatives depth ((current, currentBody) :: rest)) =
            .keyword .elifKw :: ((current.kinds ++ [Token.Kind.symbol .newline]) ++
              (kindsOfLines (linesOfBlock (depth + 1) currentBody) ++
                kindsOfLines (linesOfAlternatives depth rest))) := by
          simp [linesOfAlternatives, Expression.kinds]
        have helif : ∀ kinds, (State.statements (.nested opened done outer)).reads
            (.keyword .elifKw :: kinds) =
            (Block.nested opened done outer).elif.bind (·.reads kinds) := fun _ => rfl
        rw [hkinds, helif, h.elif outer, Option.bind_some, State.reads_append, hcurrent]
        show (State.statements
          (.nested (.elifPart .first condition body alternatives current.bare) [] outer)).reads _ = _
        rw [State.reads_append, hbody, Option.bind_some, hrest]

/-- The lines for when no condition holds, and the end of the conditional, are read as that. -/
theorem reads_linesOfOtherwise : ∀ (ss : List Statement) (depth : Nat) (outer : Block)
    {opened : Opened} {done body : List Statement} {condition : Expression}
    {alternatives : List (Expression × List Statement)},
    HasParts opened done .first condition body alternatives →
    (State.statements (.nested opened done outer)).reads
        (kindsOfLines (linesOfOtherwise depth ss ++ [Line.close depth])) =
      some (.statements (outer.add
        (.conditional condition body alternatives (bareBlock ss) .first)))
  | [], depth, outer, opened, done, body, condition, alternatives, h => by
      have hend : (State.statements (.nested opened done outer)).reads
          [Token.Kind.keyword .endKw, .symbol .newline] =
          (((Block.nested opened done outer).close ⟨.keyword .endKw, .first⟩).step
            ⟨.symbol .newline, .first⟩).bind (·.reads []) := rfl
      have hkinds : kindsOfLines (linesOfOtherwise depth [] ++ [Line.close depth]) =
          [Token.Kind.keyword .endKw, .symbol .newline] := rfl
      rw [hkinds, hend, h.close outer, Span.first_add_first]
      rfl
  | s :: rest, depth, outer, opened, done, body, condition, alternatives, h => by
      have hfirst := s.reads_lines (depth + 1)
        (.nested (.elsePart .first condition body alternatives) [] outer)
      have hrest := reads_linesOfBlock rest (depth + 1)
        (.nested (.elsePart .first condition body alternatives) [s.bare] outer)
      rw [Block.addAll_nested] at hrest
      have hkinds : kindsOfLines (linesOfOtherwise depth (s :: rest) ++ [Line.close depth]) =
          .keyword .elseKw :: .symbol .newline ::
            (kindsOfLines (s.lines (depth + 1)) ++
              (kindsOfLines (linesOfBlock (depth + 1) rest) ++
                [Token.Kind.keyword .endKw, .symbol .newline])) := by
        simp [linesOfOtherwise, Line.close]
      have helse : ∀ kinds, (State.statements (.nested opened done outer)).reads
          (.keyword .elseKw :: .symbol .newline :: kinds) =
          (Block.nested opened done outer).otherwise.bind
            fun s => (s.step ⟨.symbol .newline, .first⟩).bind (·.reads kinds) := fun _ => rfl
      rw [hkinds, helse, h.otherwise outer]
      show (State.statements
        (.nested (.elsePart .first condition body alternatives) [] outer)).reads _ = _
      rw [State.reads_append, hfirst, Option.bind_some, State.reads_append]
      show ((State.statements (.nested (.elsePart .first condition body alternatives) [s.bare]
        outer)).reads _).bind _ = _
      rw [hrest]
      rfl

end

/-! ## Declarations -/

/-- Whether no type in the first line of a method is an assignment. -/
def Method.hasReadableHeader (m : Method) : Bool :=
  m.arguments.all (!·.type.parenthesizedTarget) && m.returns.all (!·.parenthesizedTarget)

mutual

/-- Whether the first lines of all methods in a declaration can be read once they are printed. -/
def Declaration.isReadable : Declaration → Bool
  | .classDef _ body _ => areReadable body
  | .method m => m.hasReadableHeader
  | .field _ => true

/-- Whether the first lines of all methods in some declarations can be read once they are
printed. -/
def areReadable : List Declaration → Bool
  | [] => true
  | d :: rest => d.isReadable && areReadable rest

end

/-- The tokens of an argument are read as that argument, unless its type is an assignment. -/
theorem Argument.reads_pieces (a : Argument) (h : Header) {k : Token.Kind} (hk : EndsOperand k) :
    (State.argumentName h).reads (kindsOf a.pieces ++ [k]) =
      if a.type.parenthesizedTarget then none
      else (Slot.argument a.name .first h).deliver a.type.bare ⟨k, .first⟩ := by
  have hkinds : kindsOf a.pieces ++ [k] =
      .identifier a.name :: .symbol .colon :: (a.type.kinds ++ [k]) := by
    simp [pieces, typed, Expression.kinds]
  have hname : ∀ kinds, (State.argumentName h).reads
      (.identifier a.name :: .symbol .colon :: kinds) =
      (State.operand [] (.slot (.argument a.name .first h))).reads kinds := fun _ => rfl
  rw [hkinds, hname]
  exact a.type.reads_end_of_lt hk (.slot (.argument a.name .first h))
    (show InfixOp.assign.level < 10 by decide)

/-- The tokens of arguments are read as those, unless one of their types is an assignment. -/
theorem reads_headerArguments (a : Argument) (rest : List Argument) (h : Header) :
    (State.argumentName h).reads
        (kindsOf (separated ((a :: rest).map (·.pieces))) ++
          [Token.Kind.symbol .closeParenthesis]) =
      if (a :: rest).all (!·.type.parenthesizedTarget) then
        some (.afterArguments
          { h with arguments := h.arguments ++ (a :: rest).map Argument.bare })
      else none := by
  induction rest generalizing a h with
  | nil =>
      have ha := a.reads_pieces h (k := .symbol .closeParenthesis) (.inr (.inr rfl))
      refine ha.trans ?_
      cases htarget : a.type.parenthesizedTarget <;>
        simp [htarget, Slot.deliver, Header.add, Argument.bare]
  | cons b rest ih =>
      have ha := a.reads_pieces h (k := .symbol .comma) (.inr (.inl rfl))
      have hkinds : kindsOf (separated ((a :: b :: rest).map (·.pieces))) ++
          [Token.Kind.symbol .closeParenthesis] =
            (kindsOf a.pieces ++ [Token.Kind.symbol .comma]) ++
              (kindsOf (separated ((b :: rest).map (·.pieces))) ++
                [Token.Kind.symbol .closeParenthesis]) := by
        simp [separated]
      rw [hkinds, State.reads_append, ha]
      cases htarget : a.type.parenthesizedTarget with
      | true => simp [htarget]
      | false =>
          have hb := ih b (h.add a.bare)
          simp only [Bool.false_eq_true, if_false, Slot.deliver, Span.first_add_first,
            Expression.span_bare, Option.bind_some]
          refine hb.trans ?_
          simp [htarget, Header.add]

/-- A return type, if there is one, and the end of the line are read, unless the type is an
assignment. -/
theorem reads_returns {s : State} {h : Header}
    (hs : ∀ k, k = .symbol .colon ∨ k = .symbol .newline →
      s.step ⟨k, .first⟩ = stepHeader h ⟨k, .first⟩) (returns : Option Expression) :
    s.reads (kindsOf (returnPieces returns) ++ [Token.Kind.symbol .newline]) =
      if returns.all (!·.parenthesizedTarget) then
        some (.statements (.method h (returns.map Expression.bare) []))
      else none := by
  cases returns with
  | none =>
      show (s.step ⟨.symbol .newline, .first⟩).bind (·.reads []) = _
      rw [hs _ (.inr rfl)]
      rfl
  | some type =>
      have htype := type.reads_end_of_lt (k := .symbol .newline) (.inl rfl)
        (.slot (.returns h)) (show InfixOp.assign.level < 10 by decide)
      show (s.step ⟨.symbol .colon, .first⟩).bind
        (·.reads (type.kinds ++ [Token.Kind.symbol .newline])) = _
      rw [hs _ (.inl rfl)]
      refine htype.trans ?_
      cases htarget : type.parenthesizedTarget <;>
        simp [htarget, Context.deliver, Slot.deliver]

/-- The first line of a method is read, unless a type in it is an assignment. -/
theorem Method.reads_headerPieces (m : Method) (e : Enclosing) :
    (State.declarations e).reads (kindsOf m.headerPieces ++ [Token.Kind.symbol .newline]) =
      if m.hasReadableHeader then
        some (.statements (.method ⟨.first, m.name, m.arguments.map Argument.bare, e⟩
          (m.returns.map Expression.bare) []))
      else none := by
  have hname : ∀ kinds, (State.declarations e).reads
      (.keyword .methodKw :: .identifier m.name :: kinds) =
      (State.afterMethodName ⟨.first, m.name, [], e⟩).reads kinds := fun _ => rfl
  cases harguments : m.arguments with
  | nil =>
      have hreturns := reads_returns (s := .afterMethodName ⟨.first, m.name, [], e⟩)
        (h := ⟨.first, m.name, [], e⟩) (by rintro k (rfl | rfl) <;> rfl) m.returns
      have hkinds : kindsOf m.headerPieces ++ [Token.Kind.symbol .newline] =
          .keyword .methodKw :: .identifier m.name ::
            (kindsOf (returnPieces m.returns) ++ [Token.Kind.symbol .newline]) := by
        simp [headerPieces_eq, harguments]
      rw [hkinds, hname, hreturns]
      simp [hasReadableHeader, harguments]
  | cons a rest =>
      have hread := reads_headerArguments a rest ⟨.first, m.name, [], e⟩
      have hkinds : kindsOf m.headerPieces ++ [Token.Kind.symbol .newline] =
          .keyword .methodKw :: .identifier m.name :: .symbol .openParenthesis ::
            ((kindsOf (separated ((a :: rest).map (·.pieces))) ++
                [Token.Kind.symbol .closeParenthesis]) ++
              (kindsOf (returnPieces m.returns) ++ [Token.Kind.symbol .newline])) := by
        simp [headerPieces_eq, harguments, inParentheses]
      have hopen : ∀ kinds, (State.afterMethodName ⟨.first, m.name, [], e⟩).reads
          (.symbol .openParenthesis :: kinds) =
          (State.firstArgument ⟨.first, m.name, [], e⟩).reads kinds := fun _ => rfl
      have hfirst : ∀ kinds, (State.firstArgument ⟨.first, m.name, [], e⟩).reads
          (.identifier a.name :: kinds) =
          (State.argumentName ⟨.first, m.name, [], e⟩).reads (.identifier a.name :: kinds) :=
        fun _ => rfl
      -- The first name is read in a state of its own, since a list may also be closed there.
      obtain ⟨kinds, hhead⟩ : ∃ kinds, kindsOf (separated ((a :: rest).map (·.pieces))) ++
          [Token.Kind.symbol .closeParenthesis] = .identifier a.name :: kinds := by
        cases rest <;> exact ⟨_, rfl⟩
      rw [hkinds, hname, hopen, hhead, List.cons_append, hfirst, ← List.cons_append, ← hhead,
        State.reads_append, hread]
      cases hall : (a :: rest).all (!·.type.parenthesizedTarget) with
      | false => simp [hasReadableHeader, harguments, hall]
      | true =>
          have hreturns := reads_returns
            (s := .afterArguments ⟨.first, m.name, (a :: rest).map Argument.bare, e⟩)
            (h := ⟨.first, m.name, (a :: rest).map Argument.bare, e⟩)
            (by rintro k (rfl | rfl) <;> rfl) m.returns
          refine hreturns.trans ?_
          simp only [hasReadableHeader, harguments, hall, Bool.true_and]

mutual

/-- The lines of a declaration are read as that declaration, unless a method in it has a type in its
first line that is an assignment. -/
theorem Declaration.reads_lines : ∀ (d : Declaration) (depth : Nat) (e : Enclosing),
    (State.declarations e).reads (kindsOfLines (d.lines depth)) =
      if d.isReadable then some (.declarations (e.add d.bare)) else none
  | .classDef name body span, depth, e => by
      have hbody := reads_linesOfDeclarations body (depth + 1) (.inClass .first name [] e)
      rw [Enclosing.addAll_inClass, List.nil_append] at hbody
      have hkinds : kindsOfLines (Declaration.lines depth (.classDef name body span)) =
          .keyword .classKw :: .identifier name :: .symbol .newline ::
            (kindsOfLines (linesOfDeclarations (depth + 1) body) ++
              [Token.Kind.keyword .endKw, .symbol .newline]) := by
        simp [Declaration.lines, Line.close]
      have hclass : ∀ kinds, (State.declarations e).reads
          (.keyword .classKw :: .identifier name :: .symbol .newline :: kinds) =
          (State.declarations (.inClass .first name [] e)).reads kinds := fun _ => rfl
      rw [hkinds, hclass, State.reads_append, hbody, Declaration.isReadable]
      cases areReadable body <;> rfl
  | .method m, depth, e => by
      have hheader := m.reads_headerPieces e
      have hbody := reads_linesOfBlock m.body (depth + 1)
        (.method ⟨.first, m.name, m.arguments.map Argument.bare, e⟩ (m.returns.map Expression.bare) [])
      rw [Block.addAll_method, List.nil_append] at hbody
      have hkinds : kindsOfLines (Declaration.lines depth (.method m)) =
          (kindsOf m.headerPieces ++ [Token.Kind.symbol .newline]) ++
            (kindsOfLines (linesOfBlock (depth + 1) m.body) ++
              [Token.Kind.keyword .endKw, .symbol .newline]) := by
        simp [Declaration.lines, Method.lines, Line.close]
      rw [hkinds, State.reads_append, hheader, Declaration.isReadable]
      cases m.hasReadableHeader with
      | false => rfl
      | true =>
          rw [if_pos rfl, if_pos rfl, Option.bind_some, State.reads_append, hbody]
          rfl
  | .field f, depth, e => by
      have htype := f.type.reads_end (k := .symbol .newline) (.inl rfl)
        (.slot (.field f.name .first e)) (Nat.le_refl 1)
      have hkinds : kindsOfLines (Declaration.lines depth (.field f)) =
          .identifier f.name :: .symbol .colon ::
            (f.type.kinds ++ [Token.Kind.symbol .newline]) := by
        simp [Declaration.lines, Field.line, typed, Expression.kinds]
      have hname : ∀ kinds, (State.declarations e).reads
          (.identifier f.name :: .symbol .colon :: kinds) =
          (State.operand [] (.slot (.field f.name .first e))).reads kinds := fun _ => rfl
      rw [hkinds, hname, htype]
      simp [Context.deliver, Slot.deliver, Declaration.isReadable, Declaration.bare, Field.bare]

/-- The lines of declarations are read as those declarations, unless a method in them has a type in
its first line that is an assignment. -/
theorem reads_linesOfDeclarations : ∀ (ds : List Declaration) (depth : Nat) (e : Enclosing),
    (State.declarations e).reads (kindsOfLines (linesOfDeclarations depth ds)) =
      if areReadable ds then some (.declarations (e.addAll (bareDeclarations ds))) else none
  | [], _, _ => rfl
  | d :: rest, depth, e => by
      rw [linesOfDeclarations, kindsOfLines_append, State.reads_append, d.reads_lines depth e,
        areReadable]
      cases d.isReadable with
      | false => rfl
      | true =>
          rw [if_pos rfl, Option.bind_some, reads_linesOfDeclarations rest depth, Bool.true_and]
          rfl

end

/-! ## Classes -/

/-- The declarations that the text of a class holds: those of a module, or the class alone. -/
def Class.printed (c : Class) : List Declaration :=
  if c.isModule then c.body else [c.toDeclaration]

theorem Class.lines_eq (c : Class) : c.lines = linesOfDeclarations 0 c.printed := by
  rw [lines, printed]
  split
  · rfl
  · simp [linesOfDeclarations]

/-- The tokens of a printed class are read as a module with the declarations it holds, unless a
method in it has a type in its first line that is an assignment. -/
theorem Class.readModule?_kinds (c : Class) :
    readModule? c.kinds =
      if areReadable c.printed then
        some ⟨Class.moduleName, bareDeclarations c.printed, .first⟩
      else none := by
  have hread := reads_linesOfDeclarations c.printed 0 (.module [])
  rw [Enclosing.addAll_module, List.nil_append, ← Class.lines_eq] at hread
  rw [readModule?]
  show ((State.declarations (.module [])).reads (kindsOfLines c.lines)).bind _ = _
  rw [hread]
  cases areReadable c.printed <;> rfl

end Bucket
