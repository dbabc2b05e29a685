/-
# The literals of a program

Parsing neither loses, nor doubles, nor reorders what a program writes down as values: the literals of
the tree, in its order, are those among the tokens of the text (`Source.literals_of_parse`). For every
part is made of tokens and of other parts, and only a literal is made of the token for one
(`Part.MadeOf.literals_eq`).
-/
import Bucket.Proofs.Spans.Exactness

namespace Bucket

/-! ## Literals of trees -/

namespace Token.Kind

/-- The value that a token writes down, if it is a literal. -/
def literal? : Kind → Option Literal
  | literal v => some v
  | _ => .none

@[simp] theorem literal?_literal (v : Literal) : (literal v).literal? = some v := rfl

@[simp] theorem literal?_identifier (n : String) : (identifier n).literal? = .none := rfl

@[simp] theorem literal?_keyword (k : Keyword) : (keyword k).literal? = .none := rfl

@[simp] theorem literal?_symbol (s : Symbol) : (symbol s).literal? = .none := rfl

end Token.Kind

mutual

/-- The literals of an expression: those of a receiver before those of the arguments, and those on the
left of an assignment before those on the right. -/
def Expression.literals : Expression → List Literal
  | .identifier _ _ => []
  | .literal value _ => [value]
  | .call receiver _ arguments _ => receiver.literals ++ literalsOfExpressions arguments
  | .assignment left right _ => left.literals ++ right.literals

/-- The literals of expressions, one after the other. -/
def literalsOfExpressions : List Expression → List Literal
  | [] => []
  | e :: rest => e.literals ++ literalsOfExpressions rest

end

mutual

/-- The literals of a statement. Those of each condition stand before those of its body. -/
def Statement.literals : Statement → List Literal
  | .conditional condition body alternatives otherwise _ =>
      condition.literals ++ literalsOfBlock body ++ literalsOfAlternatives alternatives ++
        literalsOfBlock otherwise
  | .loop body _ => literalsOfBlock body
  | .leave _ => []
  | .cycle _ => []
  | .ret value _ => literalsOfExpressions value.toList
  | .expression value _ => value.literals

/-- The literals of statements, one after the other. -/
def literalsOfBlock : List Statement → List Literal
  | [] => []
  | s :: rest => s.literals ++ literalsOfBlock rest

/-- The literals of further conditions and their bodies. -/
def literalsOfAlternatives : List (Expression × List Statement) → List Literal
  | [] => []
  | (condition, body) :: rest =>
      condition.literals ++ literalsOfBlock body ++ literalsOfAlternatives rest

end

/-- The literals of a method: those in the types of its arguments, in its return type and in its
body. -/
def Method.literals (m : Method) : List Literal :=
  literalsOfExpressions (m.arguments.map (·.type)) ++ literalsOfExpressions m.returns.toList ++
    literalsOfBlock m.body

mutual

/-- The literals of a declaration. -/
def Declaration.literals : Declaration → List Literal
  | .classDef _ body _ => literalsOfDeclarations body
  | .method m => m.literals
  | .field f => f.type.literals

/-- The literals of declarations, one after the other. -/
def literalsOfDeclarations : List Declaration → List Literal
  | [] => []
  | d :: rest => d.literals ++ literalsOfDeclarations rest

end

/-- The literals of a class. -/
def Class.literals (c : Class) : List Literal := literalsOfDeclarations c.body

@[simp] theorem literalsOfExpressions_eq (es : List Expression) :
    literalsOfExpressions es = es.flatMap Expression.literals := by
  induction es with
  | nil => rfl
  | cons e rest ih => rw [literalsOfExpressions, ih, List.flatMap_cons]

@[simp] theorem literalsOfBlock_eq (ss : List Statement) :
    literalsOfBlock ss = ss.flatMap Statement.literals := by
  induction ss with
  | nil => rfl
  | cons s rest ih => rw [literalsOfBlock, ih, List.flatMap_cons]

@[simp] theorem literalsOfAlternatives_eq (as : List (Expression × List Statement)) :
    literalsOfAlternatives as =
      as.flatMap fun a => a.1.literals ++ a.2.flatMap Statement.literals := by
  induction as with
  | nil => rfl
  | cons a rest ih =>
      obtain ⟨condition, body⟩ := a
      rw [literalsOfAlternatives, ih, literalsOfBlock_eq, List.flatMap_cons]

@[simp] theorem literalsOfDeclarations_eq (ds : List Declaration) :
    literalsOfDeclarations ds = ds.flatMap Declaration.literals := by
  induction ds with
  | nil => rfl
  | cons d rest ih => rw [literalsOfDeclarations, ih, List.flatMap_cons]

/-! ## Literals of parts -/

/-- The literals of a part. -/
@[simp] def Part.literals : Part → List Literal
  | ofDeclaration d => d.literals
  | ofArgument a => a.type.literals
  | ofStatement s => s.literals
  | ofExpression e => e.literals

/-! ## Literals of items -/

/-- The literals of an item: the value of a token, or those of a part. -/
@[simp] def Item.literals : Item → List Literal
  | token t => t.kind.literal?.toList
  | called t => t.kind.literal?.toList
  | part p => p.literals

/-- A token that is an operator is no literal. -/
theorem Parser.PrefixOp.literal?_of_ofKind? {k : Token.Kind} {op : PrefixOp}
    (h : ofKind? k = some op) : k.literal? = none := by
  cases k with
  | literal v => cases h
  | _ => rfl

theorem Parser.InfixOp.literal?_of_ofKind? {k : Token.Kind} {op : InfixOp}
    (h : ofKind? k = some op) : k.literal? = none := by
  cases k with
  | literal v => cases h
  | _ => rfl

section

variable {items : List Item}

theorem Listed.literals_eq {separator : Symbol} {ps : List Part} (h : Listed separator ps items) :
    items.flatMap Item.literals = ps.flatMap Part.literals := by
  induction h with
  | nil => rfl
  | separator _ ht ih => simp [ih, ht]
  | part p _ ih => simp [ih]

theorem Callee.literals_eq {brackets : Parser.Brackets} {receiver : Expression} {method : String}
    (h : Callee brackets receiver method items) :
    items.flatMap Item.literals = receiver.literals := by
  cases h with
  | name ht => simp [ht, Expression.literals]
  | member hperiod ht => simp [hperiod, ht]
  | value e => simp
  | index e => simp

theorem Conditions.literals_eq {opener : Span} {condition : Expression} {body : List Statement}
    {alternatives : List (Expression × List Statement)}
    (h : Conditions opener condition body alternatives items) :
    items.flatMap Item.literals =
      condition.literals ++ literalsOfBlock body ++ literalsOfAlternatives alternatives := by
  induction h with
  | first ht _ hnewline hbody => simp [ht, hnewline, hbody.literals_eq, List.flatMap_map]
  | further _ ht hnewline hblock ih =>
      simp [ih, ht, hnewline, hblock.literals_eq, List.flatMap_map]

theorem Otherwise.literals_eq {block : List Statement} (h : Otherwise block items) :
    items.flatMap Item.literals = literalsOfBlock block := by
  cases h with
  | absent => rfl
  | present ht hnewline hblock => simp [ht, hnewline, hblock.literals_eq, List.flatMap_map]

theorem ArgumentList.literals_eq {arguments : List Argument} (h : ArgumentList arguments items) :
    items.flatMap Item.literals = literalsOfExpressions (arguments.map (·.type)) := by
  cases h with
  | absent => rfl
  | present hopener harguments hcloser =>
      simp [hopener, harguments.literals_eq, hcloser, List.flatMap_map]

theorem Returned.literals_eq {type : Option Expression} (h : Returned type items) :
    items.flatMap Item.literals = literalsOfExpressions type.toList := by
  cases h with
  | absent => rfl
  | present type hcolon => simp [hcolon]

/-- The literals of a part are those of what it is made of. -/
theorem Part.MadeOf.literals_eq {p : Part} (h : p.MadeOf items) :
    items.flatMap Item.literals = p.literals := by
  induction h with
  | identifier ht => simp [ht, Expression.literals]
  | literal ht => simp [ht, Expression.literals]
  | @group e s opener closer items hopener _ hcloser ih =>
      have hspan : (e.withSpan s).literals = e.literals := by
        cases e <;> rfl
      simpa [hopener, hcloser, hspan] using ih
  | prefixOp ht => simp [Parser.PrefixOp.literal?_of_ofKind? ht, Expression.literals]
  | binary ht => simp [Parser.InfixOp.literal?_of_ofKind? ht, Expression.literals]
  | assignment ht => simp [Parser.InfixOp.literal?_of_ofKind? ht, Expression.literals]
  | member hperiod ht => simp [hperiod, ht, Expression.literals]
  | call hcallee hopener harguments hcloser =>
      simp [hcallee.literals_eq, hopener, harguments.literals_eq, hcloser, Expression.literals,
        List.flatMap_map]
  | conditional hconditions hotherwise hcloser =>
      simp [hconditions.literals_eq, hotherwise.literals_eq, hcloser, Statement.literals]
  | loop hopener hnewline hbody hcloser =>
      simp [hopener, hnewline, hbody.literals_eq, hcloser, Statement.literals, List.flatMap_map]
  | leave ht => simp [ht, Statement.literals]
  | cycle ht => simp [ht, Statement.literals]
  | ret ht => simp [ht, Statement.literals]
  | retValue ht => simp [ht, Statement.literals]
  | expression => simp [Statement.literals]
  | argument ht hcolon => simp [ht, hcolon]
  | field ht hcolon => simp [ht, hcolon, Declaration.literals]
  | method hopener hname harguments hreturns hnewline hbody hcloser =>
      simp [hopener, hname, harguments.literals_eq, hreturns.literals_eq, hnewline,
        hbody.literals_eq, hcloser, Declaration.literals, Method.literals, List.flatMap_map]
  | classDef hopener hname hnewline hbody hcloser =>
      simp [hopener, hname, hnewline, hbody.literals_eq, hcloser, Declaration.literals,
        List.flatMap_map]

/-- Items that tokens are read as have the literals of these. -/
theorem Exact.literals_eq {ts : List Token} (h : Exact items ts) :
    items.flatMap Item.literals = ts.filterMap (·.kind.literal?) := by
  -- Each part stands for the tokens that it is made of, directly or through its own parts.
  induction h with
  | nil => rfl
  | @token t items ts _ ih => cases ht : t.kind.literal? <;> simp [ih, ht]
  | @called t items ts _ ih => cases ht : t.kind.literal? <;> simp [ih, ht]
  | part hmade _ _ _ ihown ih =>
      rw [List.flatMap_cons, List.filterMap_append, ← ihown, ← ih, hmade.literals_eq]
      rfl

end

/-! ## Programs -/

/-- No literal is lost, doubled or moved. A text that is parsed has no fault in its words, and the
literals of the tree, in its order, are those among the tokens of the text. -/
theorem Source.literals_of_parse {s : Source} {c : Class} (h : s.parse = .ok c) :
    ∃ ts, s.tokens.toExcept = .ok ts ∧ c.literals = ts.filterMap (·.kind.literal?) := by
  obtain ⟨items, hlines, hexact, -⟩ := exists_exact_of_parse h
  obtain ⟨e, hstop⟩ := exists_stop_of_parse h
  refine ⟨s.tokens.tokens, by rw [Tokens.toExcept, hstop], ?_⟩
  rw [← hexact.literals_eq, hlines.literals_eq, List.flatMap_map, Class.literals,
    literalsOfDeclarations_eq]
  rfl

/-- Operators, brackets and further conditions leave the literals in the order of the text. -/
theorem Source.literals_of_parse_conditional :
    let s := ofText "in"
      "method m(a: 'x'.b): \"t\"\nif 1 - 2 * -3 ^ .5\na[4, true] = f(5)\nelif not 6\nelse\nret 7\nend\nend\n"
    ∃ c ts, s.parse = .ok c ∧ s.tokens.toExcept = .ok ts ∧
      c.literals = ts.filterMap (·.kind.literal?) ∧
      c.literals = [.character 'x', .string "t", .integer 1, .integer 2, .integer 3,
        .real (.ofRatio 1 2), .integer 4, .boolean true, .integer 5, .integer 6, .integer 7] := by
  intro s
  have hlist : s.parse.toOption.map Class.literals = some [.character 'x', .string "t", .integer 1,
      .integer 2, .integer 3, .real (.ofRatio 1 2), .integer 4, .boolean true, .integer 5,
      .integer 6, .integer 7] := by
    decide +kernel
  obtain ⟨c, hc, hliterals⟩ := Option.map_eq_some_iff.1 hlist
  have h := eq_ok_of_toOption hc
  obtain ⟨ts, hts, heq⟩ := literals_of_parse h
  exact ⟨c, ts, h, hts, heq, hliterals⟩

end Bucket
