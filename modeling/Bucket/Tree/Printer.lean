/-
# Printing

A tree is written as lines. A line has a depth, which indents it by two spaces a level, and a row of
tokens with a few blanks between them. Operators are written as the calls that they stand for. The
module itself has no line of its own.
-/
import Bucket.Tree.Basic

namespace Bucket

/-! ## Lines -/

/-- A token or a blank on a line. -/
inductive Piece where
  | word (kind : Token.Kind)
  | blank
  deriving DecidableEq

namespace Piece

/-- The characters of a piece. -/
def chars : Piece → List Char
  | word kind => kind.spelling
  | blank => [' ']

/-- The token that a piece is, if it is one. -/
def kind? : Piece → Option Token.Kind
  | word kind => some kind
  | blank => none

/-- A keyword. -/
def keyword (k : Keyword) : Piece := word (.keyword k)

/-- A symbol. -/
def symbol (s : Symbol) : Piece := word (.symbol s)

/-- A name. -/
def name (n : String) : Piece := word (.identifier n)

end Piece

/-- A printed line. -/
structure Line where
  depth : Nat
  pieces : List Piece
  deriving DecidableEq

namespace Line

/-- The characters of a line, from its indent to its line feed. -/
def chars (l : Line) : List Char :=
  List.replicate (2 * l.depth) ' ' ++ l.pieces.flatMap Piece.chars ++ ['\n']

/-- The tokens of a line, the newline that ends it included. -/
def kinds (l : Line) : List Token.Kind :=
  l.pieces.filterMap Piece.kind? ++ [.symbol .newline]

/-- The line that closes a block. -/
def close (depth : Nat) : Line := ⟨depth, [.keyword .endKw]⟩

end Line

/-! ## Expressions -/

/-- Pieces between parentheses. -/
def inParentheses (pieces : List Piece) : List Piece :=
  .symbol .openParenthesis :: (pieces ++ [.symbol .closeParenthesis])

/-- Lists of pieces with a comma and a blank between them. -/
def separated : List (List Piece) → List Piece
  | [] => []
  | [ps] => ps
  | ps :: rest => ps ++ .symbol .comma :: .blank :: separated rest

namespace Expression

/-- Whether an expression needs parentheses in front of a point. An assignment would reach too far,
and a number would take the point. -/
def parenthesizedReceiver : Expression → Bool
  | assignment _ _ _ => true
  | literal (.integer _) _ => true
  | literal (.real _) _ => true
  | _ => false

/-- Whether an expression needs parentheses in front of an equals sign. -/
def parenthesizedTarget : Expression → Bool
  | assignment _ _ _ => true
  | _ => false

/-- Puts parentheses around pieces where they are needed. -/
def guarded (needed : Bool) (pieces : List Piece) : List Piece :=
  if needed then inParentheses pieces else pieces

end Expression

mutual

/-- The pieces of an expression. -/
def Expression.pieces : Expression → List Piece
  | .identifier name _ => [.name name]
  | .literal value _ => [.word (.literal value)]
  | .call receiver method arguments _ =>
      Expression.guarded receiver.parenthesizedReceiver receiver.pieces ++
        .symbol .period :: .name method ::
          inParentheses (separated (piecesOfExpressions arguments))
  | .assignment left right _ =>
      Expression.guarded left.parenthesizedTarget left.pieces ++
        .blank :: .symbol .equals :: .blank :: right.pieces

/-- The pieces of each of some expressions. -/
def piecesOfExpressions : List Expression → List (List Piece)
  | [] => []
  | e :: rest => e.pieces :: piecesOfExpressions rest

end

/-! ## Statements -/

mutual

/-- The lines of a statement. -/
def Statement.lines (depth : Nat) : Statement → List Line
  | .conditional condition body alternatives otherwise _ =>
      ⟨depth, .keyword .ifKw :: .blank :: condition.pieces⟩ ::
        (linesOfBlock (depth + 1) body ++ linesOfAlternatives depth alternatives ++
          linesOfOtherwise depth otherwise ++ [Line.close depth])
  | .loop body _ =>
      ⟨depth, [.keyword .doKw]⟩ :: (linesOfBlock (depth + 1) body ++ [Line.close depth])
  | .leave _ => [⟨depth, [.keyword .breakKw]⟩]
  | .cycle _ => [⟨depth, [.keyword .cycleKw]⟩]
  | .ret none _ => [⟨depth, [.keyword .retKw]⟩]
  | .ret (some value) _ => [⟨depth, .keyword .retKw :: .blank :: value.pieces⟩]
  | .expression value _ => [⟨depth, value.pieces⟩]

/-- The lines of statements, one after the other. -/
def linesOfBlock (depth : Nat) : List Statement → List Line
  | [] => []
  | s :: rest => s.lines depth ++ linesOfBlock depth rest

/-- The lines of further conditions and their bodies. -/
def linesOfAlternatives (depth : Nat) : List (Expression × List Statement) → List Line
  | [] => []
  | (condition, body) :: rest =>
      ⟨depth, .keyword .elifKw :: .blank :: condition.pieces⟩ ::
        (linesOfBlock (depth + 1) body ++ linesOfAlternatives depth rest)

/-- The lines for when no condition holds. There are none for no statements. -/
def linesOfOtherwise (depth : Nat) : List Statement → List Line
  | [] => []
  | s :: rest =>
      ⟨depth, [.keyword .elseKw]⟩ :: (s.lines (depth + 1) ++ linesOfBlock (depth + 1) rest)

end

/-! ## Declarations -/

/-- A name, a colon and a type. -/
def typed (name : String) (type : Expression) : List Piece :=
  .name name :: .symbol .colon :: .blank :: type.pieces

/-- The pieces of an argument. -/
def Argument.pieces (a : Argument) : List Piece := typed a.name a.type

/-- The pieces of the first line of a method. Parentheses are written when there are arguments. -/
def Method.headerPieces (m : Method) : List Piece :=
  .keyword .methodKw :: .blank :: .name m.name ::
    ((if m.arguments.isEmpty then [] else inParentheses (separated (m.arguments.map (·.pieces)))) ++
      (match m.returns with
        | some type => .symbol .colon :: .blank :: type.pieces
        | none => []))

/-- The lines of a method. -/
def Method.lines (depth : Nat) (m : Method) : List Line :=
  ⟨depth, m.headerPieces⟩ :: (linesOfBlock (depth + 1) m.body ++ [Line.close depth])

/-- The line of a field. -/
def Field.line (depth : Nat) (f : Field) : Line := ⟨depth, typed f.name f.type⟩

mutual

/-- The lines of a declaration. -/
def Declaration.lines (depth : Nat) : Declaration → List Line
  | .classDef name body _ =>
      ⟨depth, [.keyword .classKw, .blank, .name name]⟩ ::
        (linesOfDeclarations (depth + 1) body ++ [Line.close depth])
  | .method m => m.lines depth
  | .field f => [f.line depth]

/-- The lines of declarations, one after the other. -/
def linesOfDeclarations (depth : Nat) : List Declaration → List Line
  | [] => []
  | d :: rest => d.lines depth ++ linesOfDeclarations depth rest

end

namespace Class

/-- The lines of a class. A module is its body alone. -/
def lines (c : Class) : List Line :=
  if c.isModule then linesOfDeclarations 0 c.body else c.toDeclaration.lines 0

/-- The text of a class. -/
def render (c : Class) : String := String.ofList (c.lines.flatMap Line.chars)

end Class

end Bucket
