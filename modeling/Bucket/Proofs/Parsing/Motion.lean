/-
# Moving a program in its text

When text is put in front of a program, the program comes to stand in other places, but the order of
these is the same. A motion is such a change of places. Here it is carried over to trees, tokens and
diagnostics. Forgetting all places is a motion too (`Declaration.bare_eq_move`).
-/
import Bucket.Diagnostic
import Bucket.Tree.Spans

namespace Bucket

/-! ## Motions -/

/-- A change of places that keeps their order. -/
structure Motion where
  place : Position → Position
  mono : ∀ {p q : Position}, p ≤ q → place p ≤ place q

namespace Motion

/-- Where a stretch of text comes to lie. -/
def span (f : Motion) (s : Span) : Span := ⟨f.place s.start, f.place s.stop⟩

/-- The motion of all places to the first one. -/
def toFirst : Motion := ⟨fun _ => .first, fun _ => Position.le_refl _⟩

/-- The motion of all places down by some lines. -/
def down (k : Nat) : Motion where
  place p := ⟨p.line + k, p.column⟩
  mono h := by
    rw [Position.le_def] at *
    dsimp only
    omega

variable (f : Motion)

theorem place_min (p q : Position) : f.place (min p q) = min (f.place p) (f.place q) := by
  simp only [Min.min]
  by_cases h : p ≤ q
  · rw [if_pos h, if_pos (f.mono h)]
  · have hqp := f.mono ((Position.le_total p q).resolve_left h)
    rw [if_neg h]
    split
    · exact Position.le_antisymm hqp ‹_›
    · rfl

theorem place_max (p q : Position) : f.place (max p q) = max (f.place p) (f.place q) := by
  simp only [Max.max]
  by_cases h : p ≤ q
  · rw [if_pos h, if_pos (f.mono h)]
  · have hqp := f.mono ((Position.le_total p q).resolve_left h)
    rw [if_neg h]
    split
    · exact Position.le_antisymm ‹_› hqp
    · rfl

/-- Stretches that are joined and moved are moved and joined. -/
@[simp] theorem span_add (a b : Span) : f.span (a + b) = f.span a + f.span b := by
  simp only [span, Span.add_def, place_min, place_max]

@[simp] theorem toFirst_span (s : Span) : toFirst.span s = .first := rfl

end Motion

/-! ## Trees -/

mutual

/-- An expression in other places. -/
def Expression.move (f : Motion) : Expression → Expression
  | .identifier name s => .identifier name (f.span s)
  | .literal value s => .literal value (f.span s)
  | .call receiver method arguments s =>
      .call (receiver.move f) method (moveExpressions f arguments) (f.span s)
  | .assignment left right s => .assignment (left.move f) (right.move f) (f.span s)

/-- Expressions in other places. -/
def moveExpressions (f : Motion) : List Expression → List Expression
  | [] => []
  | e :: rest => e.move f :: moveExpressions f rest

end

mutual

/-- A statement in other places. -/
def Statement.move (f : Motion) : Statement → Statement
  | .conditional condition body alternatives otherwise s =>
      .conditional (condition.move f) (moveBlock f body) (moveAlternatives f alternatives)
        (moveBlock f otherwise) (f.span s)
  | .loop body s => .loop (moveBlock f body) (f.span s)
  | .leave s => .leave (f.span s)
  | .cycle s => .cycle (f.span s)
  | .ret value s => .ret (value.map (·.move f)) (f.span s)
  | .expression value s => .expression (value.move f) (f.span s)

/-- Statements in other places. -/
def moveBlock (f : Motion) : List Statement → List Statement
  | [] => []
  | s :: rest => s.move f :: moveBlock f rest

/-- Further conditions and their bodies in other places. -/
def moveAlternatives (f : Motion) :
    List (Expression × List Statement) → List (Expression × List Statement)
  | [] => []
  | (condition, body) :: rest =>
      (condition.move f, moveBlock f body) :: moveAlternatives f rest

end

/-- An argument in another place. -/
def Argument.move (f : Motion) (a : Argument) : Argument := ⟨a.name, a.type.move f, f.span a.span⟩

/-- A method in other places. -/
def Method.move (f : Motion) (m : Method) : Method :=
  ⟨m.name, m.arguments.map (·.move f), m.returns.map (·.move f), moveBlock f m.body, f.span m.span⟩

/-- A field in another place. -/
def Field.move (f : Motion) (d : Field) : Field := ⟨d.name, d.type.move f, f.span d.span⟩

mutual

/-- A declaration in other places. -/
def Declaration.move (f : Motion) : Declaration → Declaration
  | .classDef name body s => .classDef name (moveDeclarations f body) (f.span s)
  | .method m => .method (m.move f)
  | .field d => .field (d.move f)

/-- Declarations in other places. -/
def moveDeclarations (f : Motion) : List Declaration → List Declaration
  | [] => []
  | d :: rest => d.move f :: moveDeclarations f rest

end

/-! ## Tokens and diagnostics -/

/-- A token in another place. -/
def Token.move (f : Motion) (t : Token) : Token := ⟨t.kind, f.span t.span⟩

/-- A diagnostic for another place. -/
def Diagnostic.move (f : Motion) : Diagnostic → Diagnostic
  | lexical fault p => lexical fault (f.place p)
  | syntactic expected found p => syntactic expected found (f.place p)
  | semantic fault p => semantic fault (f.place p)
  | file fault path => file fault path

variable (f : Motion)

@[simp] theorem Expression.span_move (e : Expression) : (e.move f).span = f.span e.span := by
  cases e <;> rfl

@[simp] theorem Expression.name?_move (e : Expression) : (e.move f).name? = e.name? := by
  cases e <;> rfl

@[simp] theorem Declaration.span_move (d : Declaration) : (d.move f).span = f.span d.span := by
  cases d <;> rfl

@[simp] theorem Declaration.name_move (d : Declaration) : (d.move f).name = d.name := by
  cases d <;> rfl

@[simp] theorem Token.kind_move (t : Token) : (t.move f).kind = t.kind := rfl

@[simp] theorem Token.span_move (t : Token) : (t.move f).span = f.span t.span := rfl

/-! ## Lists of parts -/

theorem moveExpressions_eq_map (es : List Expression) :
    moveExpressions f es = es.map (·.move f) := by
  induction es with
  | nil => rfl
  | cons e rest ih => simp [moveExpressions, ih]

theorem moveBlock_eq_map (ss : List Statement) : moveBlock f ss = ss.map (·.move f) := by
  induction ss with
  | nil => rfl
  | cons s rest ih => simp [moveBlock, ih]

theorem moveAlternatives_eq_map (as : List (Expression × List Statement)) :
    moveAlternatives f as = as.map fun a => (a.1.move f, a.2.map (·.move f)) := by
  induction as with
  | nil => rfl
  | cons a rest ih =>
      obtain ⟨condition, body⟩ := a
      simp [moveAlternatives, moveBlock_eq_map, ih]

theorem moveDeclarations_eq_map (ds : List Declaration) :
    moveDeclarations f ds = ds.map (·.move f) := by
  induction ds with
  | nil => rfl
  | cons d rest ih => simp [moveDeclarations, ih]

/-! ## Forgetting places -/

mutual

theorem Expression.bare_eq_move : ∀ e : Expression, e.bare = e.move .toFirst
  | .identifier _ _ => rfl
  | .literal _ _ => rfl
  | .call receiver method arguments _ => by
      rw [Expression.bare, Expression.move, receiver.bare_eq_move, bareExpressions_eq_move arguments]
      rfl
  | .assignment left right _ => by
      rw [Expression.bare, Expression.move, left.bare_eq_move, right.bare_eq_move]
      rfl

theorem bareExpressions_eq_move : ∀ es : List Expression,
    bareExpressions es = moveExpressions .toFirst es
  | [] => rfl
  | e :: rest => by
      rw [bareExpressions, moveExpressions, e.bare_eq_move, bareExpressions_eq_move rest]

end

/-- Forgetting the places of an expression is a motion. -/
theorem Expression.bare_eq : Expression.bare = Expression.move .toFirst :=
  funext Expression.bare_eq_move

mutual

theorem Statement.bare_eq_move : ∀ s : Statement, s.bare = s.move .toFirst
  | .conditional condition body alternatives otherwise _ => by
      rw [Statement.bare, Statement.move, condition.bare_eq_move, bareBlock_eq_move body,
        bareAlternatives_eq_move alternatives, bareBlock_eq_move otherwise]
      rfl
  | .loop body _ => by
      rw [Statement.bare, Statement.move, bareBlock_eq_move body]
      rfl
  | .leave _ => rfl
  | .cycle _ => rfl
  | .ret value _ => by
      rw [Statement.bare, Statement.move, Expression.bare_eq]
      rfl
  | .expression value _ => by
      rw [Statement.bare, Statement.move, value.bare_eq_move]
      rfl

theorem bareBlock_eq_move : ∀ ss : List Statement, bareBlock ss = moveBlock .toFirst ss
  | [] => rfl
  | s :: rest => by rw [bareBlock, moveBlock, s.bare_eq_move, bareBlock_eq_move rest]

theorem bareAlternatives_eq_move : ∀ as : List (Expression × List Statement),
    bareAlternatives as = moveAlternatives .toFirst as
  | [] => rfl
  | (condition, body) :: rest => by
      rw [bareAlternatives, moveAlternatives, condition.bare_eq_move, bareBlock_eq_move body,
        bareAlternatives_eq_move rest]

end

theorem Argument.bare_eq : Argument.bare = Argument.move .toFirst := by
  funext a
  rw [bare, move, Expression.bare_eq_move]
  rfl

theorem Method.bare_eq_move (m : Method) : m.bare = m.move .toFirst := by
  rw [bare, move, Argument.bare_eq, Expression.bare_eq, bareBlock_eq_move]
  rfl

theorem Field.bare_eq_move (d : Field) : d.bare = d.move .toFirst := by
  rw [bare, move, Expression.bare_eq_move]
  rfl

mutual

theorem Declaration.bare_eq_move : ∀ d : Declaration, d.bare = d.move .toFirst
  | .classDef name body _ => by
      rw [Declaration.bare, Declaration.move, bareDeclarations_eq_move body]
      rfl
  | .method m => congrArg Declaration.method m.bare_eq_move
  | .field d => congrArg Declaration.field d.bare_eq_move

theorem bareDeclarations_eq_move : ∀ ds : List Declaration,
    bareDeclarations ds = moveDeclarations .toFirst ds
  | [] => rfl
  | d :: rest => by
      rw [bareDeclarations, moveDeclarations, d.bare_eq_move, bareDeclarations_eq_move rest]

end

end Bucket
