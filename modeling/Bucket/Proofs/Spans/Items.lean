/-
# What parts are made of

A part is made of tokens and of other parts (`Part.MadeOf`). Tokens are read as parts exactly when each
part has the place of the tokens that it is made of, directly or through its own parts, from the first
to the last (`Exact`). Then the parts lie in each other like brackets do (`Exact.nested`). What is
written from left to right is put together one token or one part at a time (`Exact.shift`,
`Exact.reduce`).
-/
import Bucket.Parser.State
import Bucket.Proofs.Spans.Parts

namespace Bucket

open Bucket.Parser (PrefixOp InfixOp Brackets)

/-! ## Items -/

/-- What a part is made of: tokens, and parts that lie in it. A name that is called on the object itself
also stands for that object. -/
inductive Item where
  | token (t : Token)
  | called (t : Token)
  | part (p : Part)

namespace Item

/-- Where an item stands. -/
def span : Item → Span
  | token t => t.span
  | called t => t.span
  | part p => p.span

@[simp] theorem span_token (t : Token) : (token t).span = t.span := rfl

@[simp] theorem span_called (t : Token) : (called t).span = t.span := rfl

@[simp] theorem span_part (p : Part) : (part p).span = p.span := rfl

/-- The part that an item is or stands for, if there is one. -/
def part? : Item → Option Part
  | token _ => none
  | called t => some (.ofExpression (.identifier Expression.selfName t.span))
  | part p => some p

/-- A part stands where its item does. -/
theorem span_of_part? {i : Item} {p : Part} (h : i.part? = some p) : p.span = i.span := by
  cases i with
  | token t => cases h
  | called t =>
      obtain rfl := Option.some.inj h
      rfl
  | part q =>
      obtain rfl := Option.some.inj h
      rfl

end Item

/-- The parts among some items. -/
def partsOf (items : List Item) : List Part := items.filterMap Item.part?

@[simp] theorem partsOf_nil : partsOf [] = [] := rfl

@[simp] theorem partsOf_token (t : Token) (items : List Item) :
    partsOf (.token t :: items) = partsOf items := rfl

@[simp] theorem partsOf_called (t : Token) (items : List Item) :
    partsOf (.called t :: items) =
      .ofExpression (.identifier Expression.selfName t.span) :: partsOf items := rfl

@[simp] theorem partsOf_part (p : Part) (items : List Item) :
    partsOf (.part p :: items) = p :: partsOf items := rfl

@[simp] theorem partsOf_append (a b : List Item) : partsOf (a ++ b) = partsOf a ++ partsOf b :=
  List.filterMap_append

/-! ## Lists of parts -/

/-- Parts one behind the other, with tokens of one symbol around them. -/
inductive Listed (separator : Symbol) : List Part → List Item → Prop where
  | nil : Listed separator [] []
  | separator {ps : List Part} {items : List Item} {t : Token} :
      Listed separator ps items → t.kind = .symbol separator →
      Listed separator ps (items ++ [.token t])
  | part {ps : List Part} {items : List Item} (p : Part) :
      Listed separator ps items → Listed separator (ps ++ [p]) (items ++ [.part p])

/-- Parts are listed in their order. -/
theorem Listed.partsOf_eq {separator : Symbol} {ps : List Part} {items : List Item}
    (h : Listed separator ps items) : partsOf items = ps := by
  induction h with
  | nil => rfl
  | separator _ _ ih => simp [ih]
  | part p _ ih => simp [ih]

/-- Statements or declarations, each on lines of its own. -/
abbrev OnLines : List Part → List Item → Prop := Listed .newline

/-! ## Expressions -/

/-- The symbol that opens brackets. -/
def Parser.Brackets.opener : Brackets → Symbol
  | round => .openParenthesis
  | square => .openBracket

/-- What stands in front of the brackets of a call, and the method that is called on the receiver. A
bare name is called on the object itself. -/
inductive Callee : Brackets → Expression → String → List Item → Prop where
  | name {n : String} {t : Token} :
      t.kind = .identifier n →
      Callee .round (.identifier Expression.selfName t.span) n [.called t]
  | member {receiver : Expression} {n : String} {period t : Token} :
      period.kind = .symbol .period → t.kind = .identifier n →
      Callee .round receiver n [.part (.ofExpression receiver), .token period, .token t]
  | value (e : Expression) : Callee .round e "__call__" [.part (.ofExpression e)]
  | index (e : Expression) : Callee .square e "__index__" [.part (.ofExpression e)]

/-! ## Statements and declarations -/

/-- A conditional up to its last condition, and what depends on that. -/
inductive Conditions (opener : Span) (condition : Expression) (body : List Statement) :
    List (Expression × List Statement) → List Item → Prop where
  | first {t newline : Token} {items : List Item} :
      t.kind = .keyword .ifKw → t.span = opener → newline.kind = .symbol .newline →
      OnLines (body.map .ofStatement) items →
      Conditions opener condition body []
        (.token t :: .part (.ofExpression condition) :: .token newline :: items)
  | further {alternatives : List (Expression × List Statement)} {front : List Item} {t newline : Token}
      {current : Expression} {block : List Statement} {items : List Item} :
      Conditions opener condition body alternatives front → t.kind = .keyword .elifKw →
      newline.kind = .symbol .newline → OnLines (block.map .ofStatement) items →
      Conditions opener condition body (alternatives ++ [(current, block)])
        (front ++ .token t :: .part (.ofExpression current) :: .token newline :: items)

/-- What is done when no condition holds. -/
inductive Otherwise : List Statement → List Item → Prop where
  | absent : Otherwise [] []
  | present {t newline : Token} {block : List Statement} {items : List Item} :
      t.kind = .keyword .elseKw → newline.kind = .symbol .newline →
      OnLines (block.map .ofStatement) items →
      Otherwise block (.token t :: .token newline :: items)

/-- The arguments of a method. -/
inductive ArgumentList : List Argument → List Item → Prop where
  | absent : ArgumentList [] []
  | present {opener closer : Token} {arguments : List Argument} {items : List Item} :
      opener.kind = .symbol .openParenthesis → Listed .comma (arguments.map .ofArgument) items →
      closer.kind = .symbol .closeParenthesis →
      ArgumentList arguments (.token opener :: items ++ [.token closer])

/-- The return type of a method. -/
inductive Returned : Option Expression → List Item → Prop where
  | absent : Returned none []
  | present {colon : Token} (type : Expression) :
      colon.kind = .symbol .colon →
      Returned (some type) [.token colon, .part (.ofExpression type)]

/-! ## Parts -/

/-- The items that a part is made of, from the first to the last one. The newline that ends the line of
a part is not one of them. What stands in parentheses is made of these as well. -/
inductive Part.MadeOf : Part → List Item → Prop where
  | identifier {n : String} {s : Span} {t : Token} :
      t.kind = .identifier n → MadeOf (.ofExpression (.identifier n s)) [.token t]
  | literal {v : Literal} {s : Span} {t : Token} :
      t.kind = .literal v → MadeOf (.ofExpression (.literal v s)) [.token t]
  | group {e : Expression} {s : Span} {opener closer : Token} {items : List Item} :
      opener.kind = .symbol .openParenthesis → MadeOf (.ofExpression e) items →
      closer.kind = .symbol .closeParenthesis →
      MadeOf (.ofExpression (e.withSpan s)) (.token opener :: items ++ [.token closer])
  | prefixOp {op : PrefixOp} {e : Expression} {s : Span} {t : Token} :
      PrefixOp.ofKind? t.kind = some op →
      MadeOf (.ofExpression (.call e op.method [] s)) [.token t, .part (.ofExpression e)]
  | binary {op : Parser.BinaryOp} {left right : Expression} {s : Span} {t : Token} :
      InfixOp.ofKind? t.kind = some (.binary op) →
      MadeOf (.ofExpression (.call left op.method [right] s))
        [.part (.ofExpression left), .token t, .part (.ofExpression right)]
  | assignment {left right : Expression} {s : Span} {t : Token} :
      InfixOp.ofKind? t.kind = some .assign →
      MadeOf (.ofExpression (.assignment left right s))
        [.part (.ofExpression left), .token t, .part (.ofExpression right)]
  | member {receiver : Expression} {n : String} {s : Span} {period t : Token} :
      period.kind = .symbol .period → t.kind = .identifier n →
      MadeOf (.ofExpression (.call receiver n [] s))
        [.part (.ofExpression receiver), .token period, .token t]
  | call {brackets : Brackets} {receiver : Expression} {method : String} {arguments : List Expression}
      {s : Span} {opener closer : Token} {callee items : List Item} :
      Callee brackets receiver method callee → opener.kind = .symbol brackets.opener →
      Listed .comma (arguments.map .ofExpression) items → closer.kind = .symbol brackets.closer →
      MadeOf (.ofExpression (.call receiver method arguments s))
        (callee ++ .token opener :: items ++ [.token closer])
  | conditional {condition : Expression} {body otherwise : List Statement}
      {alternatives : List (Expression × List Statement)} {opener s : Span} {closer : Token}
      {conditions items : List Item} :
      Conditions opener condition body alternatives conditions → Otherwise otherwise items →
      closer.kind = .keyword .endKw →
      MadeOf (.ofStatement (.conditional condition body alternatives otherwise s))
        (conditions ++ items ++ [.token closer])
  | loop {body : List Statement} {s : Span} {opener newline closer : Token} {items : List Item} :
      opener.kind = .keyword .doKw → newline.kind = .symbol .newline →
      OnLines (body.map .ofStatement) items → closer.kind = .keyword .endKw →
      MadeOf (.ofStatement (.loop body s))
        (.token opener :: .token newline :: items ++ [.token closer])
  | leave {s : Span} {t : Token} :
      t.kind = .keyword .breakKw → MadeOf (.ofStatement (.leave s)) [.token t]
  | cycle {s : Span} {t : Token} :
      t.kind = .keyword .cycleKw → MadeOf (.ofStatement (.cycle s)) [.token t]
  | ret {s : Span} {t : Token} :
      t.kind = .keyword .retKw → MadeOf (.ofStatement (.ret none s)) [.token t]
  | retValue {e : Expression} {s : Span} {t : Token} :
      t.kind = .keyword .retKw →
      MadeOf (.ofStatement (.ret (some e) s)) [.token t, .part (.ofExpression e)]
  | expression {e : Expression} {s : Span} :
      MadeOf (.ofStatement (.expression e s)) [.part (.ofExpression e)]
  | argument {n : String} {type : Expression} {s : Span} {t colon : Token} :
      t.kind = .identifier n → colon.kind = .symbol .colon →
      MadeOf (.ofArgument ⟨n, type, s⟩) [.token t, .token colon, .part (.ofExpression type)]
  | field {n : String} {type : Expression} {s : Span} {t colon : Token} :
      t.kind = .identifier n → colon.kind = .symbol .colon →
      MadeOf (.ofDeclaration (.field ⟨n, type, s⟩))
        [.token t, .token colon, .part (.ofExpression type)]
  | method {m : Method} {opener name newline closer : Token} {arguments returns items : List Item} :
      opener.kind = .keyword .methodKw → name.kind = .identifier m.name →
      ArgumentList m.arguments arguments → Returned m.returns returns →
      newline.kind = .symbol .newline → OnLines (m.body.map .ofStatement) items →
      closer.kind = .keyword .endKw →
      MadeOf (.ofDeclaration (.method m))
        (.token opener :: .token name :: (arguments ++ (returns ++ .token newline :: items)) ++
          [.token closer])
  | classDef {n : String} {body : List Declaration} {s : Span} {opener name newline closer : Token}
      {items : List Item} :
      opener.kind = .keyword .classKw → name.kind = .identifier n → newline.kind = .symbol .newline →
      OnLines (body.map .ofDeclaration) items → closer.kind = .keyword .endKw →
      MadeOf (.ofDeclaration (.classDef n body s))
        (.token opener :: .token name :: .token newline :: items ++ [.token closer])

theorem Callee.partsOf_eq {brackets : Brackets} {receiver : Expression} {method : String}
    {items : List Item} (h : Callee brackets receiver method items) :
    partsOf items = [.ofExpression receiver] := by
  cases h <;> rfl

theorem Conditions.partsOf_eq {opener : Span} {condition : Expression} {body : List Statement}
    {alternatives : List (Expression × List Statement)} {items : List Item}
    (h : Conditions opener condition body alternatives items) :
    partsOf items = .ofExpression condition ::
      (body.map .ofStatement ++ Part.ofAlternatives alternatives) := by
  induction h with
  | first _ _ _ hbody => simp [hbody.partsOf_eq, Part.ofAlternatives]
  | further _ _ _ hblock ih => simp [ih, hblock.partsOf_eq, Part.ofAlternatives]

/-- A conditional begins with its first token. -/
theorem Conditions.exists_head {opener : Span} {condition : Expression} {body : List Statement}
    {alternatives : List (Expression × List Statement)} {items : List Item}
    (h : Conditions opener condition body alternatives items) :
    ∃ i rest, items = i :: rest ∧ i.span = opener := by
  induction h with
  | first _ hspan _ _ => exact ⟨_, _, rfl, hspan⟩
  | further _ _ _ _ ih =>
      obtain ⟨i, rest, rfl, hspan⟩ := ih
      exact ⟨i, _, rfl, hspan⟩

theorem Otherwise.partsOf_eq {block : List Statement} {items : List Item}
    (h : Otherwise block items) : partsOf items = block.map .ofStatement := by
  cases h with
  | absent => rfl
  | present _ _ hblock => simp [hblock.partsOf_eq]

theorem ArgumentList.partsOf_eq {arguments : List Argument} {items : List Item}
    (h : ArgumentList arguments items) : partsOf items = arguments.map .ofArgument := by
  cases h with
  | absent => rfl
  | present _ harguments _ => simp [harguments.partsOf_eq]

theorem Returned.partsOf_eq {type : Option Expression} {items : List Item}
    (h : Returned type items) : partsOf items = type.toList.map .ofExpression := by
  cases h <;> rfl

/-- A part is made of its children, in their order, and of tokens. -/
theorem Part.MadeOf.partsOf_eq {p : Part} {items : List Item} (h : p.MadeOf items) :
    partsOf items = p.children := by
  induction h with
  | group _ _ _ ih => simp [ih]
  | call hcallee _ harguments _ => simp [hcallee.partsOf_eq, harguments.partsOf_eq, children]
  | conditional hconditions hotherwise _ =>
      simp [hconditions.partsOf_eq, hotherwise.partsOf_eq, children]
  | loop _ _ hbody _ => simp [hbody.partsOf_eq, children]
  | method _ _ harguments hreturns _ hbody _ =>
      simp [harguments.partsOf_eq, hreturns.partsOf_eq, hbody.partsOf_eq, children]
  | classDef _ _ _ hbody _ => simp [hbody.partsOf_eq, children]
  | _ => rfl

/-! ## Tokens of items -/

/-- Whether tokens are read as items, one behind the other, so that every part has the place of the
tokens that it is made of. -/
inductive Exact : List Item → List Token → Prop where
  | nil : Exact [] []
  | token {t : Token} {items : List Item} {ts : List Token} :
      Exact items ts → Exact (.token t :: items) (t :: ts)
  | called {t : Token} {items : List Item} {ts : List Token} :
      Exact items ts → Exact (.called t :: items) (t :: ts)
  | part {p : Part} {own items : List Item} {ts us : List Token} :
      p.MadeOf own → Exact own ts → p.span.Covers ts → Exact items us →
      Exact (.part p :: items) (ts ++ us)

/-- Whether a part was read from some tokens and has their place. It is made of them, or it is the object
that the name among them is called on. -/
def Part.ReadFrom (p : Part) (ts : List Token) : Prop :=
  p.span.Covers ts ∧ ((∃ items, p.MadeOf items ∧ Exact items ts) ∨
    ∃ t, ts = [t] ∧ p = .ofExpression (.identifier Expression.selfName t.span))

namespace Exact

variable {front own items : List Item} {ts us : List Token} {t : Token} {p : Part}

theorem append (h : Exact front ts) (h' : Exact items us) : Exact (front ++ items) (ts ++ us) := by
  induction h with
  | nil => exact h'
  | token _ ih => exact .token ih
  | called _ ih => exact .called ih
  | part hmade hown hcovers _ _ ih =>
      rw [List.append_assoc]
      exact .part hmade hown hcovers ih

/-- Tokens of items one behind the other are those of the first ones, and then those of the others. -/
theorem exists_of_append (h : Exact (front ++ items) ts) :
    ∃ us vs, ts = us ++ vs ∧ Exact front us ∧ Exact items vs := by
  induction front generalizing ts with
  | nil => exact ⟨[], ts, rfl, .nil, h⟩
  | cons i front ih =>
      cases h with
      | token h =>
          obtain ⟨us, vs, rfl, hfront, hitems⟩ := ih h
          exact ⟨_ :: us, vs, rfl, .token hfront, hitems⟩
      | called h =>
          obtain ⟨us, vs, rfl, hfront, hitems⟩ := ih h
          exact ⟨_ :: us, vs, rfl, .called hfront, hitems⟩
      | part hmade hown hcovers h =>
          obtain ⟨us, vs, rfl, hfront, hitems⟩ := ih h
          exact ⟨_, vs, (List.append_assoc _ us vs).symm, .part hmade hown hcovers hfront, hitems⟩

/-! ### Places -/

/-- Where tokens are in order, so are the items that they are read as, behind any places. -/
theorem inOrder_append (h : Exact items ts) (places : List Span)
    (hts : InOrder (places ++ ts.map (·.span))) : InOrder (places ++ items.map Item.span) := by
  -- The places in front grow by one for each item that is passed.
  induction h generalizing places with
  | nil => exact hts
  | @token t items ts _ ih | @called t items ts _ ih =>
      have hrest := ih (places ++ [t.span]) (by simpa using hts)
      simpa using hrest
  | @part p own items ts us _ _ hcovers _ _ ih =>
      rw [List.map_append] at hts
      have hrest := ih (places ++ [p.span]) (by simpa using hts.collapse hcovers)
      simpa using hrest

theorem inOrder (h : Exact items ts) (hts : InOrder (ts.map (·.span))) :
    InOrder (items.map Item.span) := h.inOrder_append [] hts

/-- Every item begins and ends where one of the tokens does. -/
theorem exists_token (h : Exact items ts) :
    ∀ i ∈ items, (∃ t ∈ ts, i.span.start = t.span.start) ∧ ∃ u ∈ ts, i.span.stop = u.span.stop := by
  induction h with
  | nil => simp
  | token _ ih | called _ ih =>
      refine List.forall_mem_cons.2 ⟨?_, fun i hi => ?_⟩
      · exact ⟨⟨_, List.mem_cons_self, rfl⟩, ⟨_, List.mem_cons_self, rfl⟩⟩
      · obtain ⟨⟨t, ht, hstart⟩, u, hu, hstop⟩ := ih i hi
        exact ⟨⟨t, List.mem_cons_of_mem _ ht, hstart⟩, ⟨u, List.mem_cons_of_mem _ hu, hstop⟩⟩
  | part _ _ hcovers _ _ ih =>
      refine List.forall_mem_cons.2 ⟨?_, fun i hi => ?_⟩
      · obtain ⟨⟨t, ht, hstart⟩, u, hu, hstop⟩ := hcovers.exists_mem
        exact ⟨⟨t, List.mem_append_left _ ht, hstart⟩, ⟨u, List.mem_append_left _ hu, hstop⟩⟩
      · obtain ⟨⟨t, ht, hstart⟩, u, hu, hstop⟩ := ih i hi
        exact ⟨⟨t, List.mem_append_right _ ht, hstart⟩, ⟨u, List.mem_append_right _ hu, hstop⟩⟩

/-- The first item begins where the first token does. -/
theorem start_eq {i : Item} (h : Exact (i :: items) ts) :
    ∃ t ∈ ts.head?, i.span.start = t.span.start := by
  cases h with
  | token _ => exact ⟨_, rfl, rfl⟩
  | called _ => exact ⟨_, rfl, rfl⟩
  | part _ _ hcovers _ =>
      obtain ⟨t, ht, u, -, hspan⟩ := hcovers
      refine ⟨t, ?_, by rw [Item.span_part, hspan]⟩
      rw [List.head?_append, ht]
      rfl

/-- The last item ends where the last token does. -/
theorem stop_eq {i : Item} (h : Exact (items ++ [i]) ts) :
    ∃ u ∈ ts.getLast?, i.span.stop = u.span.stop := by
  obtain ⟨us, vs, rfl, -, hlast⟩ := h.exists_of_append
  cases hlast with
  | token hnil =>
      cases hnil
      exact ⟨_, List.getLast?_concat, rfl⟩
  | called hnil =>
      cases hnil
      exact ⟨_, List.getLast?_concat, rfl⟩
  | part _ _ hcovers hnil =>
      cases hnil
      obtain ⟨t, -, u, hu, hspan⟩ := hcovers
      refine ⟨u, ?_, by rw [Item.span_part, hspan]⟩
      rw [List.append_nil, List.getLast?_append, hu]
      rfl

/-- The places of the first and the last item make up the place of all tokens. -/
theorem covers {a b : Item} (h : Exact items ts) (hts : InOrder (ts.map (·.span)))
    (ha : a ∈ items.head?) (hb : b ∈ items.getLast?) : (a.span + b.span).Covers ts := by
  have horder := h.inOrder hts
  have hmema : a.span ∈ items.map Item.span := List.mem_map_of_mem (List.mem_of_head? ha)
  have hmemb : b.span ∈ items.map Item.span := List.mem_map_of_mem (List.mem_of_getLast? hb)
  obtain ⟨rest, hrest⟩ := List.head?_eq_some_iff.1 ha
  obtain ⟨before, hbefore⟩ := List.getLast?_eq_some_iff.1 hb
  have hstart : a.span.start ≤ b.span.start := by
    rw [hrest] at horder hmemb
    exact horder.head_le _ hmemb
  have hstop : a.span.stop ≤ b.span.stop := by
    rw [hbefore, List.map_append] at horder hmema
    exact horder.le_getLast _ hmema
  obtain ⟨t, ht, hfirst⟩ := start_eq (hrest ▸ h)
  obtain ⟨u, hu, hlast⟩ := stop_eq (hbefore ▸ h)
  exact ⟨t, ht, u, hu, by rw [Span.add_eq hstart hstop, hfirst, hlast]⟩

/-- A part that has the tokens of its children in its place has these in it, one behind the other. -/
theorem nested_of_within (h : Exact own ts) (hts : InOrder (ts.map (·.span)))
    (hchildren : partsOf own = p.children) (hspan : p.span.start ≤ p.span.stop)
    (hwithin : ∀ t ∈ ts, t.span.Within p.span) (hown : ∀ q ∈ partsOf own, q.Nested) : p.Nested := by
  refine .mk hspan ?_ ?_ (hchildren ▸ hown) <;> rw [← hchildren]
  · intro q hq
    obtain ⟨i, hi, hpart⟩ := List.mem_filterMap.1 hq
    obtain ⟨⟨t, ht, hstart⟩, u, hu, hstop⟩ := h.exists_token i hi
    rw [Span.Within, Item.span_of_part? hpart, hstart, hstop]
    exact ⟨(hwithin t ht).1, (hwithin u hu).2⟩
  · refine (List.pairwise_map.1 (h.inOrder hts).pairwise).filterMap Item.part? ?_
    intro i j hbefore q hq r hr
    rwa [Item.span_of_part? hq, Item.span_of_part? hr]

/-- The parts of a program lie in each other like brackets do. -/
theorem nested (h : Exact items ts) (hts : InOrder (ts.map (·.span))) :
    ∀ p ∈ partsOf items, p.Nested := by
  induction h with
  | nil => simp
  | @token t items ts _ ih =>
      rw [List.map_cons] at hts
      exact ih (hts.of_append_right (a := [t.span]))
  | @called t items ts _ ih =>
      rw [List.map_cons] at hts
      have hself : (Part.ofExpression (.identifier Expression.selfName t.span)).Nested :=
        .mk (hts.start_le_stop t.span List.mem_cons_self) (by simp [Part.children])
          (by simp [Part.children]) (by simp [Part.children])
      exact List.forall_mem_cons.2 ⟨hself, ih (hts.of_append_right (a := [t.span]))⟩
  | @part p own items ts us hmade hown hcovers _ ihown ih =>
      rw [List.map_append] at hts
      have hown' := hts.of_append_left
      have hp := hown.nested_of_within hown' hmade.partsOf_eq (hcovers.start_le_stop hown')
        (hcovers.within hown') (ihown hown')
      exact List.forall_mem_cons.2 ⟨hp, ih hts.of_append_right⟩

/-- Every part of a program, at any depth, was read from a stretch of the tokens and has its place. -/
theorem exists_readFrom (h : Exact items ts) :
    ∀ p ∈ partsOf items, ∀ q : Part, q.LiesIn p → ∃ own, own <:+: ts ∧ q.ReadFrom own := by
  induction h with
  | nil => simp
  | @token t items ts _ ih =>
      intro p hp q hq
      obtain ⟨own, hinfix, hown⟩ := ih p hp q hq
      exact ⟨own, List.infix_cons hinfix, hown⟩
  | @called t items ts _ ih =>
      intro p hp q hq
      rcases List.mem_cons.1 hp with rfl | hp
      · -- No part lies in a name.
        cases hq with
        | self => exact ⟨[t], ⟨[], ts, rfl⟩, ⟨t, rfl, t, rfl, rfl⟩, .inr ⟨t, rfl, rfl⟩⟩
        | child hchild _ => cases hchild
      · obtain ⟨own, hinfix, hown⟩ := ih p hp q hq
        exact ⟨own, List.infix_cons hinfix, hown⟩
  | @part p own items ts us hmade hown hcovers _ ihown ih =>
      intro p' hp q hq
      rcases List.mem_cons.1 hp with rfl | hp
      · cases hq with
        | self => exact ⟨ts, (List.prefix_append ts us).isInfix, hcovers, .inl ⟨own, hmade, hown⟩⟩
        | child hchild hq =>
            rw [← hmade.partsOf_eq] at hchild
            obtain ⟨inner, hinfix, hinner⟩ := ihown _ hchild q hq
            exact ⟨inner, hinfix.trans (List.prefix_append ts us).isInfix, hinner⟩
      · obtain ⟨inner, hinfix, hinner⟩ := ih p' hp q hq
        exact ⟨inner, hinfix.trans (List.suffix_append ts us).isInfix, hinner⟩

/-! ### Reading from left to right -/

/-- One more token is read. -/
theorem shift (h : Exact items ts) (t : Token) : Exact (items ++ [.token t]) (ts ++ [t]) :=
  h.append (.token .nil)

/-- The last items make up a part. -/
theorem reduce (h : Exact (front ++ own) ts) (hts : InOrder (ts.map (·.span))) (hmade : p.MadeOf own)
    (hspan : ∃ a ∈ own.head?, ∃ b ∈ own.getLast?, p.span = a.span + b.span) :
    Exact (front ++ [.part p]) ts := by
  obtain ⟨us, vs, rfl, hfront, hown⟩ := h.exists_of_append
  obtain ⟨a, ha, b, hb, hspan⟩ := hspan
  rw [List.map_append] at hts
  have hcovers : p.span.Covers vs := hspan ▸ hown.covers hts.of_append_right ha hb
  have hpart := hfront.append (.part hmade hown hcovers .nil)
  rwa [List.append_nil] at hpart

/-- A part at the end was made of some items. -/
theorem exists_madeOf (h : Exact (front ++ [.part p]) ts) :
    ∃ own, p.MadeOf own ∧ Exact (front ++ own) ts := by
  obtain ⟨us, vs, rfl, hfront, hpart⟩ := h.exists_of_append
  cases hpart with
  | part hmade hown _ hnil =>
      cases hnil
      rw [List.append_nil]
      exact ⟨_, hmade, hfront.append hown⟩

/-- A name at the end may turn out to be called. -/
theorem called_of_token (h : Exact (front ++ [.token t]) ts) : Exact (front ++ [.called t]) ts := by
  obtain ⟨us, vs, rfl, hfront, hname⟩ := h.exists_of_append
  cases hname with
  | token hnil => exact hfront.append (.called hnil)

end Exact

end Bucket
