/-
# Documents

A tree can be printed by way of a document: texts and breaks that are put one after the other, where parts
of a document are nested deeper than the rest. A break is laid out as a line feed and as many blanks as
the parts around it are nested deep, and nothing else goes over to a new line. The first line of a block,
what stands in the block and its end are so appended at different depths. Laid out, the document of a
class is the text that the class is printed as (`Class.layout_document`).
-/
import Bucket.Proofs.Printing.Text

namespace Bucket

/-- Texts with breaks between them. -/
inductive Document where
  | empty
  | text (chars : List Char)
  | newLine
  | nest (width : Nat) (inner : Document)
  | append (first second : Document)

namespace Document

instance : Append Document := ⟨append⟩

/-- The text of a document, inside parts that are nested by some number of blanks. -/
def layout (indent : Nat) : Document → List Char
  | empty => []
  | text chars => chars
  | newLine => '\n' :: List.replicate indent ' '
  | nest n inner => inner.layout (indent + n)
  | append first second => first.layout indent ++ second.layout indent

/-- Documents one after the other. -/
def concat : List Document → Document
  | [] => empty
  | d :: rest => d ++ concat rest

/-- Documents with another one between them. -/
def intersperse (separator : Document) : List Document → Document
  | [] => empty
  | [d] => d
  | d :: rest => d ++ separator ++ intersperse separator rest

/-- A document between parentheses. -/
def parens (d : Document) : Document := text ['('] ++ d ++ text [')']

/-- Each item on a line of its own, one level deeper. -/
def body (items : List Document) : Document := nest 2 (concat (items.map (newLine ++ ·)))

/-- The end of a block. -/
def ending : Document := newLine ++ text "end".toList

variable {indent : Nat}

@[simp] theorem layout_append (a b : Document) :
    (a ++ b).layout indent = a.layout indent ++ b.layout indent := rfl

@[simp] theorem layout_text (chars : List Char) : (text chars).layout indent = chars := rfl

@[simp] theorem layout_newLine : newLine.layout indent = '\n' :: List.replicate indent ' ' := rfl

@[simp] theorem layout_parens (d : Document) :
    d.parens.layout indent = '(' :: (d.layout indent ++ [')']) := by
  simp [parens]

/-- Documents with commas between them are laid out as their pieces are. -/
theorem layout_intersperse {ds : List Document} {pss : List (List Piece)}
    (h : ds.map (layout indent) = pss.map textOf) :
    (intersperse (text [',', ' ']) ds).layout indent = textOf (separated pss) := by
  induction ds generalizing pss with
  | nil =>
      obtain rfl := List.map_eq_nil_iff.1 h.symm
      rfl
  | cons d rest ih =>
      cases pss with
      | nil => cases h
      | cons ps more =>
          obtain ⟨hd, hrest⟩ := List.cons.inj h
          have hih := ih hrest
          cases rest with
          | nil =>
              obtain rfl := List.map_eq_nil_iff.1 hrest.symm
              exact hd
          | cons d' rest =>
              cases more with
              | nil => cases hrest
              | cons ps' more =>
                  show (d ++ text [',', ' '] ++ intersperse (text [',', ' ']) (d' :: rest)).layout
                    indent = _
                  rw [layout_append, layout_append, hih, hd]
                  simp [separated, Piece.chars, Piece.symbol, Token.Kind.spelling]
                  rfl

end Document

open Document

/-! ## Expressions -/

theorem textOf_inParentheses (ps : List Piece) :
    textOf (inParentheses ps) = '(' :: (textOf ps ++ [')']) := by
  rw [inParentheses, textOf_cons, textOf_append]
  rfl

/-- Puts parentheses around a document where they are needed. -/
def Document.guarded (needed : Bool) (d : Document) : Document := if needed then d.parens else d

theorem Document.layout_guarded {d : Document} {ps : List Piece} {indent : Nat} (needed : Bool)
    (h : d.layout indent = textOf ps) :
    (d.guarded needed).layout indent = textOf (Expression.guarded needed ps) := by
  cases needed with
  | false => exact h
  | true =>
      show d.parens.layout indent = textOf (inParentheses ps)
      rw [layout_parens, h, textOf_inParentheses]

mutual

/-- The document of an expression. -/
def Expression.document : Expression → Document
  | .identifier name _ => text name.toList
  | .literal value _ => text value.spelling
  | .call receiver method arguments _ =>
      receiver.document.guarded receiver.parenthesizedReceiver ++
        text ('.' :: method.toList) ++
        (intersperse (text [',', ' ']) (documentsOfExpressions arguments)).parens
  | .assignment left right _ =>
      left.document.guarded left.parenthesizedTarget ++ text " = ".toList ++ right.document

/-- The documents of expressions. -/
def documentsOfExpressions : List Expression → List Document
  | [] => []
  | e :: rest => e.document :: documentsOfExpressions rest

end

mutual

/-- Expressions are laid out on one line, however deep they stand. -/
theorem Expression.layout_document (indent : Nat) :
    ∀ e : Expression, e.document.layout indent = textOf e.pieces
  | .identifier name _ => (List.append_nil _).symm
  | .literal value _ => (List.append_nil _).symm
  | .call receiver method arguments _ => by
      have hreceiver := Document.layout_guarded receiver.parenthesizedReceiver
        (Expression.layout_document indent receiver)
      have harguments := layout_intersperse (layout_documentsOfExpressions indent arguments)
      rw [Expression.document, Expression.pieces, layout_append, layout_append, layout_parens,
        hreceiver, harguments, textOf_append, textOf_cons, textOf_cons, textOf_inParentheses]
      simp [Piece.chars, Piece.symbol, Piece.name, Token.Kind.spelling]
      rfl
  | .assignment left right _ => by
      have hleft := Document.layout_guarded left.parenthesizedTarget
        (Expression.layout_document indent left)
      rw [Expression.document, Expression.pieces, layout_append, layout_append, hleft,
        Expression.layout_document indent right, textOf_append]
      simp [Piece.chars, Piece.symbol, Token.Kind.spelling]
      rfl

theorem layout_documentsOfExpressions (indent : Nat) : ∀ es : List Expression,
    (documentsOfExpressions es).map (Document.layout indent) = (piecesOfExpressions es).map textOf
  | [] => rfl
  | e :: rest => by
      rw [documentsOfExpressions, piecesOfExpressions, List.map_cons, List.map_cons,
        Expression.layout_document indent e, layout_documentsOfExpressions indent rest]

end

/-! ## Lines -/

/-- The text of some lines. -/
def charsOfLines (ls : List Line) : List Char := ls.flatMap Line.chars

/-- Whether a document that stands behind the text of a line at a depth is laid out as the lines below
it. -/
def Document.Follows (depth : Nat) (d : Document) (ls : List Line) : Prop :=
  d.layout (2 * depth) ++ ['\n'] = '\n' :: charsOfLines ls

namespace Document.Follows

variable {depth : Nat} {d e : Document} {ls ms : List Line}

theorem empty : Follows depth .empty [] := rfl

/-- Lines follow on each other. -/
theorem append (hd : Follows depth d ls) (he : Follows depth e ms) :
    Follows depth (d ++ e) (ls ++ ms) :=
  calc d.layout (2 * depth) ++ e.layout (2 * depth) ++ ['\n']
    _ = (d.layout (2 * depth) ++ ['\n']) ++ charsOfLines ms := by
        rw [List.append_assoc, he, List.append_assoc, List.singleton_append]
    _ = '\n' :: charsOfLines (ls ++ ms) := by
        rw [hd, List.cons_append, charsOfLines, charsOfLines, charsOfLines, List.flatMap_append]

/-- What is laid out on one line makes a line, if it stands behind a break. -/
theorem line {ps : List Piece} (h : d.layout (2 * depth) = textOf ps) :
    Follows depth (newLine ++ d) [⟨depth, ps⟩] := by
  rw [Follows, layout_append, layout_newLine, h]
  simp [charsOfLines, Line.chars, textOf]

/-- The first line of a block, and what follows on it. -/
theorem opener {ps : List Piece} (h : d.layout (2 * depth) = textOf ps) (he : Follows depth e ls) :
    Follows depth (newLine ++ (d ++ e)) (⟨depth, ps⟩ :: ls) := by
  have hassoc : (newLine ++ (d ++ e)).layout (2 * depth) =
      (newLine ++ d ++ e).layout (2 * depth) := (List.append_assoc _ _ _).symm
  rw [Follows, hassoc]
  exact (line h).append he

theorem ending : Follows depth ending [Line.close depth] := line rfl

theorem body_nil : Follows depth (body []) [] := rfl

/-- Items in a block stand one level deeper. -/
theorem body_cons {ds : List Document} (hd : Follows (depth + 1) (newLine ++ d) ls)
    (hds : Follows depth (body ds) ms) : Follows depth (body (d :: ds)) (ls ++ ms) := by
  have hitem : Follows depth (nest 2 (newLine ++ d)) ls := hd
  exact hitem.append hds

end Document.Follows

/-! ## Statements -/

mutual

/-- The document of a statement. -/
def Statement.document : Statement → Document
  | .conditional condition body alternatives otherwise _ =>
      text "if ".toList ++ condition.document ++ (Document.body (documentsOfBlock body) ++
        documentOfAlternatives alternatives ++ documentOfOtherwise otherwise ++ ending)
  | .loop body _ => text "do".toList ++ (Document.body (documentsOfBlock body) ++ ending)
  | .leave _ => text "break".toList
  | .cycle _ => text "cycle".toList
  | .ret none _ => text "ret".toList
  | .ret (some value) _ => text "ret ".toList ++ value.document
  | .expression value _ => value.document

/-- The documents of statements. -/
def documentsOfBlock : List Statement → List Document
  | [] => []
  | s :: rest => s.document :: documentsOfBlock rest

/-- The document of further conditions and their bodies. -/
def documentOfAlternatives : List (Expression × List Statement) → Document
  | [] => .empty
  | (condition, body) :: rest =>
      newLine ++ (text "elif ".toList ++ condition.document ++
        (Document.body (documentsOfBlock body) ++ documentOfAlternatives rest))

/-- The document for when no condition holds. It is empty for no statements. -/
def documentOfOtherwise : List Statement → Document
  | [] => .empty
  | s :: rest =>
      newLine ++ (text "else".toList ++ Document.body (s.document :: documentsOfBlock rest))

end

/-- A keyword and an expression behind it are laid out on one line. -/
theorem Document.layout_keyword (k : Keyword) (e : Expression) (indent : Nat) :
    (text (k.text.toList ++ [' ']) ++ e.document).layout indent =
      textOf (.keyword k :: .blank :: e.pieces) := by
  rw [layout_append, layout_text, e.layout_document, List.append_assoc, textOf_cons, textOf_cons]
  rfl

mutual

/-- The document of a statement is laid out as the lines of the statement. -/
theorem Statement.follows_document (depth : Nat) : ∀ s : Statement,
    Follows depth (newLine ++ s.document) (s.lines depth)
  | .conditional condition body alternatives otherwise _ =>
      .opener (Document.layout_keyword .ifKw condition _)
        ((((follows_documentsOfBlock depth body).append
          (follows_documentOfAlternatives depth alternatives)).append
          (follows_documentOfOtherwise depth otherwise)).append .ending)
  | .loop body _ => .opener rfl ((follows_documentsOfBlock depth body).append .ending)
  | .leave _ => .line rfl
  | .cycle _ => .line rfl
  | .ret none _ => .line rfl
  | .ret (some value) _ => .line (Document.layout_keyword .retKw value _)
  | .expression value _ => .line (value.layout_document _)

/-- The statements of a block are laid out as their lines, one level deeper. -/
theorem follows_documentsOfBlock (depth : Nat) : ∀ ss : List Statement,
    Follows depth (Document.body (documentsOfBlock ss)) (linesOfBlock (depth + 1) ss)
  | [] => .body_nil
  | s :: rest => .body_cons (s.follows_document (depth + 1)) (follows_documentsOfBlock depth rest)

theorem follows_documentOfAlternatives (depth : Nat) : ∀ as : List (Expression × List Statement),
    Follows depth (documentOfAlternatives as) (linesOfAlternatives depth as)
  | [] => .empty
  | (condition, body) :: rest =>
      .opener (Document.layout_keyword .elifKw condition _)
        ((follows_documentsOfBlock depth body).append (follows_documentOfAlternatives depth rest))

theorem follows_documentOfOtherwise (depth : Nat) : ∀ ss : List Statement,
    Follows depth (documentOfOtherwise ss) (linesOfOtherwise depth ss)
  | [] => .empty
  | s :: rest =>
      .opener rfl
        (.body_cons (s.follows_document (depth + 1)) (follows_documentsOfBlock depth rest))

end

/-! ## Declarations -/

/-- The document of a name, a colon and a type. -/
def typedDocument (name : String) (type : Expression) : Document :=
  text (name.toList ++ ": ".toList) ++ type.document

theorem layout_typedDocument (name : String) (type : Expression) (indent : Nat) :
    (typedDocument name type).layout indent = textOf (typed name type) := by
  rw [typedDocument, typed, layout_append, layout_text, type.layout_document, List.append_assoc]
  rfl

/-- The document of a return type, if there is one. -/
def returnDocument : Option Expression → Document
  | some type => text ": ".toList ++ type.document
  | none => .empty

/-- The document of the first line of a method. -/
def Method.headerDocument (m : Method) : Document :=
  text ("method ".toList ++ m.name.toList) ++
    ((if m.arguments.isEmpty then .empty else
        (intersperse (text [',', ' '])
          (m.arguments.map fun a => typedDocument a.name a.type)).parens) ++
      returnDocument m.returns)

theorem Method.layout_headerDocument (m : Method) (indent : Nat) :
    m.headerDocument.layout indent = textOf m.headerPieces := by
  have hreturns : (returnDocument m.returns).layout indent = textOf (returnPieces m.returns) := by
    cases m.returns with
    | none => rfl
    | some type =>
        rw [returnDocument, layout_append, type.layout_document]
        rfl
  have hlist : (m.arguments.map fun a => typedDocument a.name a.type).map (layout indent) =
      (m.arguments.map (·.pieces)).map textOf := by
    rw [List.map_map, List.map_map]
    exact List.map_congr_left fun a _ => layout_typedDocument a.name a.type indent
  have harguments : (if m.arguments.isEmpty then Document.empty else
      (intersperse (text [',', ' '])
        (m.arguments.map fun a => typedDocument a.name a.type)).parens).layout indent =
      textOf (if m.arguments.isEmpty then [] else
        inParentheses (separated (m.arguments.map (·.pieces)))) := by
    split
    · rfl
    · rw [layout_parens, layout_intersperse hlist, textOf_inParentheses]
  rw [headerDocument, headerPieces_eq, layout_append, layout_append, layout_text, hreturns,
    harguments, textOf_cons, textOf_cons, textOf_cons, textOf_append, List.append_assoc]
  rfl

mutual

/-- The document of a declaration. -/
def Declaration.document : Declaration → Document
  | .classDef name body _ =>
      text ("class ".toList ++ name.toList) ++ (Document.body (documentsOfDeclarations body) ++ ending)
  | .method m => m.headerDocument ++ (Document.body (documentsOfBlock m.body) ++ ending)
  | .field f => typedDocument f.name f.type

/-- The documents of declarations. -/
def documentsOfDeclarations : List Declaration → List Document
  | [] => []
  | d :: rest => d.document :: documentsOfDeclarations rest

end

mutual

/-- The document of a declaration is laid out as the lines of the declaration. -/
theorem Declaration.follows_document (depth : Nat) : ∀ d : Declaration,
    Follows depth (newLine ++ d.document) (d.lines depth)
  | .classDef name body _ =>
      .opener (by simp; rfl) ((follows_documentsOfDeclarations depth body).append .ending)
  | .method m =>
      .opener (m.layout_headerDocument _) ((follows_documentsOfBlock depth m.body).append .ending)
  | .field f => .line (layout_typedDocument f.name f.type _)

theorem follows_documentsOfDeclarations (depth : Nat) : ∀ ds : List Declaration,
    Follows depth (Document.body (documentsOfDeclarations ds)) (linesOfDeclarations (depth + 1) ds)
  | [] => .body_nil
  | d :: rest =>
      .body_cons (d.follows_document (depth + 1)) (follows_documentsOfDeclarations depth rest)

end

/-- The document of a class that is printed. Behind each declaration of a module, and behind any other
class, stands a break. -/
def Class.document (c : Class) : Document :=
  if c.isModule then concat ((documentsOfDeclarations c.body).map (· ++ newLine))
  else c.toDeclaration.document ++ newLine

/-- What follows on a line at depth zero is ended by a break. -/
theorem Document.Follows.layout_zero {d : Document} {ls : List Line}
    (h : Follows 0 (newLine ++ d) ls) : (d ++ newLine).layout 0 = charsOfLines ls :=
  (List.cons.inj h).2

/-- The document of a class is laid out as the text of the class. -/
theorem Class.layout_document (c : Class) : c.document.layout 0 = c.render.toList := by
  have hbody : ∀ ds : List Declaration,
      (concat ((documentsOfDeclarations ds).map (· ++ newLine))).layout 0 =
        charsOfLines (linesOfDeclarations 0 ds) := by
    intro ds
    induction ds with
    | nil => rfl
    | cons d rest ih =>
        have hd := (d.follows_document 0).layout_zero
        rw [documentsOfDeclarations, List.map_cons, concat, layout_append, hd, ih,
          linesOfDeclarations, charsOfLines, charsOfLines, charsOfLines, List.flatMap_append]
  rw [render, String.toList_ofList, document, lines]
  split
  · exact hbody c.body
  · exact (c.toDeclaration.follows_document 0).layout_zero

end Bucket
