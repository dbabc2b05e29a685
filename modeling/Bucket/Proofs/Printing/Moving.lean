/-
# The text of a program in other places

What is printed for a program does not depend on where its parts stand (`linesOfDeclarations_move`).
Declarations are printed one after the other (`linesOfDeclarations_append`).
-/
import Bucket.Proofs.Parsing.Motion
import Bucket.Proofs.Printing.Text

namespace Bucket

variable {f : Motion}

mutual

theorem Expression.pieces_move : ∀ e : Expression, (e.move f).pieces = e.pieces
  | .identifier _ _ => rfl
  | .literal _ _ => rfl
  | .call receiver method arguments _ => by
      have hneeded : (receiver.move f).parenthesizedReceiver = receiver.parenthesizedReceiver := by
        cases receiver with
        | literal v _ => cases v <;> rfl
        | _ => rfl
      rw [Expression.move, Expression.pieces, Expression.pieces, Expression.pieces_move receiver,
        piecesOfExpressions_move arguments, hneeded]
  | .assignment left right _ => by
      have hneeded : (left.move f).parenthesizedTarget = left.parenthesizedTarget := by
        cases left <;> rfl
      rw [Expression.move, Expression.pieces, Expression.pieces, Expression.pieces_move left,
        Expression.pieces_move right, hneeded]

theorem piecesOfExpressions_move : ∀ es : List Expression,
    piecesOfExpressions (moveExpressions f es) = piecesOfExpressions es
  | [] => rfl
  | e :: rest => by
      rw [moveExpressions, piecesOfExpressions, piecesOfExpressions, e.pieces_move,
        piecesOfExpressions_move rest]

end

mutual

theorem Statement.lines_move : ∀ (s : Statement) (depth : Nat),
    (s.move f).lines depth = s.lines depth
  | .conditional condition body alternatives otherwise _, depth => by
      rw [Statement.move, Statement.lines, Statement.lines, condition.pieces_move,
        linesOfBlock_move body, linesOfAlternatives_move alternatives,
        linesOfOtherwise_move otherwise]
  | .loop body _, depth => by
      rw [Statement.move, Statement.lines, Statement.lines, linesOfBlock_move body]
  | .leave _, depth => rfl
  | .cycle _, depth => rfl
  | .ret none _, depth => rfl
  | .ret (some value) _, depth => by
      rw [Statement.move, Option.map_some, Statement.lines, Statement.lines, value.pieces_move]
  | .expression value _, depth => by
      rw [Statement.move, Statement.lines, Statement.lines, value.pieces_move]

theorem linesOfBlock_move : ∀ (ss : List Statement) (depth : Nat),
    linesOfBlock depth (moveBlock f ss) = linesOfBlock depth ss
  | [], _ => rfl
  | s :: rest, depth => by
      rw [moveBlock, linesOfBlock, linesOfBlock, s.lines_move, linesOfBlock_move rest]

theorem linesOfAlternatives_move : ∀ (as : List (Expression × List Statement)) (depth : Nat),
    linesOfAlternatives depth (moveAlternatives f as) = linesOfAlternatives depth as
  | [], _ => rfl
  | (condition, body) :: rest, depth => by
      rw [moveAlternatives, linesOfAlternatives, linesOfAlternatives, condition.pieces_move,
        linesOfBlock_move body, linesOfAlternatives_move rest]

theorem linesOfOtherwise_move : ∀ (ss : List Statement) (depth : Nat),
    linesOfOtherwise depth (moveBlock f ss) = linesOfOtherwise depth ss
  | [], _ => rfl
  | s :: rest, depth => by
      rw [moveBlock, linesOfOtherwise, linesOfOtherwise, s.lines_move, linesOfBlock_move rest]

end

theorem Argument.pieces_move (a : Argument) : (a.move f).pieces = a.pieces := by
  rw [pieces, pieces, move, typed, typed, Expression.pieces_move]

theorem Method.lines_move (m : Method) (depth : Nat) : (m.move f).lines depth = m.lines depth := by
  have harguments : (m.move f).arguments.map (·.pieces) = m.arguments.map (·.pieces) := by
    rw [move, List.map_map]
    exact List.map_congr_left fun a _ => a.pieces_move
  have hempty : (m.move f).arguments.isEmpty = m.arguments.isEmpty := List.isEmpty_map
  have hreturns : returnPieces (m.move f).returns = returnPieces m.returns := by
    rw [move]
    cases m.returns with
    | none => rfl
    | some type => rw [Option.map_some, returnPieces, returnPieces, type.pieces_move]
  have hheader : (m.move f).headerPieces = m.headerPieces := by
    rw [headerPieces_eq, headerPieces_eq, harguments, hempty, hreturns]
    rfl
  rw [lines, lines, hheader, show (m.move f).body = moveBlock f m.body from rfl, linesOfBlock_move]

mutual

theorem Declaration.lines_move : ∀ (d : Declaration) (depth : Nat),
    (d.move f).lines depth = d.lines depth
  | .classDef name body _, depth => by
      rw [Declaration.move, Declaration.lines, Declaration.lines, linesOfDeclarations_move body]
  | .method m, depth => m.lines_move depth
  | .field d, depth => by
      rw [Declaration.move, Declaration.lines, Declaration.lines, Field.line, Field.line, Field.move,
        typed, typed, Expression.pieces_move]

theorem linesOfDeclarations_move : ∀ (ds : List Declaration) (depth : Nat),
    linesOfDeclarations depth (moveDeclarations f ds) = linesOfDeclarations depth ds
  | [], _ => rfl
  | d :: rest, depth => by
      rw [moveDeclarations, linesOfDeclarations, linesOfDeclarations, d.lines_move,
        linesOfDeclarations_move rest]

end

/-- The text of a class does not depend on places. -/
theorem Class.render_bare (c : Class) : c.bare.render = c.render := by
  have hdeclaration : c.bare.toDeclaration = c.toDeclaration.move .toFirst :=
    c.toDeclaration.bare_eq_move
  have hbody : c.bare.body = moveDeclarations .toFirst c.body := bareDeclarations_eq_move c.body
  have hmodule : c.bare.isModule = c.isModule := rfl
  have hlines : c.bare.lines = c.lines := by
    rw [lines, lines, hmodule, hbody, linesOfDeclarations_move, hdeclaration, Declaration.lines_move]
  rw [render, render, hlines]

/-- Declarations are printed one after the other. -/
theorem linesOfDeclarations_append (depth : Nat) (ds es : List Declaration) :
    linesOfDeclarations depth (ds ++ es) =
      linesOfDeclarations depth ds ++ linesOfDeclarations depth es := by
  induction ds with
  | nil => rfl
  | cons d rest ih =>
      rw [List.cons_append, linesOfDeclarations, linesOfDeclarations, ih, List.append_assoc]

end Bucket
