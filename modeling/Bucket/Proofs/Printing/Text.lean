/-
# The text of a tree

The text that a tree is printed as is read as the tokens it was put together from
(`Class.lexes_render`), if all names and literals of the tree can be written. A token is always over
where the next piece of its line begins: this is why a number in front of a point needs parentheses.
-/
import Bucket.Proofs.Parsing.Words

namespace Bucket

open Lexer

/-! ## Pieces -/

/-- The characters of pieces. -/
def textOf (pieces : List Piece) : List Char := pieces.flatMap Piece.chars

/-- The tokens of pieces. -/
def kindsOf (pieces : List Piece) : List Token.Kind := pieces.filterMap Piece.kind?

@[simp] theorem textOf_nil : textOf [] = [] := rfl

@[simp] theorem textOf_cons (p : Piece) (ps : List Piece) : textOf (p :: ps) = p.chars ++ textOf ps :=
  List.flatMap_cons

@[simp] theorem textOf_append (a b : List Piece) : textOf (a ++ b) = textOf a ++ textOf b :=
  List.flatMap_append

@[simp] theorem kindsOf_nil : kindsOf [] = [] := rfl

@[simp] theorem kindsOf_word (k : Token.Kind) (ps : List Piece) :
    kindsOf (.word k :: ps) = k :: kindsOf ps := rfl

@[simp] theorem kindsOf_blank (ps : List Piece) : kindsOf (.blank :: ps) = kindsOf ps := rfl

@[simp] theorem kindsOf_name (n : String) (ps : List Piece) :
    kindsOf (.name n :: ps) = .identifier n :: kindsOf ps := rfl

@[simp] theorem kindsOf_keyword (k : Keyword) (ps : List Piece) :
    kindsOf (.keyword k :: ps) = .keyword k :: kindsOf ps := rfl

@[simp] theorem kindsOf_symbol (s : Symbol) (ps : List Piece) :
    kindsOf (.symbol s :: ps) = .symbol s :: kindsOf ps := rfl

@[simp] theorem kindsOf_append (a b : List Piece) : kindsOf (a ++ b) = kindsOf a ++ kindsOf b :=
  List.filterMap_append

/-- Whether pieces, in front of a text, are read as their tokens and what the text is read as. -/
def Prints (pieces : List Piece) (rest : List Char) (kinds : List Token.Kind) : Prop :=
  Lexes (textOf pieces ++ rest) (kindsOf pieces ++ kinds)

namespace Prints

variable {ps qs : List Piece} {rest : List Char} {kinds : List Token.Kind}

theorem word {k : Token.Kind} (hk : k.isWritable = true)
    (hends : k.endsBefore (textOf ps ++ rest).head? = true) (h : Prints ps rest kinds) :
    Prints (.word k :: ps) rest kinds := by
  have := Lexes.word hk hends h
  rwa [Prints, textOf_cons, List.append_assoc]

/-- A token that is over before everything. -/
theorem symbol {s : Symbol} (hs : s ≠ .endOfFile)
    (hends : ∀ next, (Token.Kind.symbol s).endsBefore next = true) (h : Prints ps rest kinds) :
    Prints (.symbol s :: ps) rest kinds :=
  h.word (by simp [Token.Kind.isWritable, hs]) (hends _)

theorem blank (h : Prints ps rest kinds) : Prints (.blank :: ps) rest kinds := Lexes.blank h

/-- Pieces are printed one after the other. -/
theorem append (h : Prints qs rest kinds)
    (hps : Prints qs rest kinds → Prints ps (textOf qs ++ rest) (kindsOf qs ++ kinds)) :
    Prints (ps ++ qs) rest kinds := by
  have := hps h
  rw [Prints] at this ⊢
  rwa [textOf_append, kindsOf_append, List.append_assoc, List.append_assoc]

end Prints

/-! ## What stands behind a token -/

/-- Whether a character may stand behind an expression in printed text. -/
def isSeparator (c : Char) : Bool := c == ' ' || c == '\n' || c == ')' || c == ','

/-- Whether a character stands behind a name in printed text, but not behind each expression. -/
def isJoiner (c : Char) : Bool := c == '.' || c == ':' || c == '('

theorem endsNumber_of_isSeparator {c : Char} (h : isSeparator c = true) : endsNumber c = true := by
  simp only [isSeparator, Bool.or_eq_true, beq_iff_eq] at h
  rcases h with ((rfl | rfl) | rfl) | rfl <;> decide +kernel

/-- Words are over before both. -/
theorem sharesFirstByte_of_isSeparator {c : Char} (h : (isSeparator c || isJoiner c) = true) :
    sharesFirstByte c = false := by
  simp only [isSeparator, isJoiner, Bool.or_eq_true, beq_iff_eq] at h
  rcases h with (((rfl | rfl) | rfl) | rfl) | (rfl | rfl) | rfl <;> decide +kernel

/-- A token that is written as a word is over before a separator or a joiner. -/
theorem Token.Kind.endsBefore_of_word {k : Token.Kind} {c : Char}
    (hk : ∀ next, k.endsBefore next = !next.any sharesFirstByte)
    (hc : (isSeparator c || isJoiner c) = true) : k.endsBefore (some c) = true := by
  rw [hk, Option.any_some, sharesFirstByte_of_isSeparator hc]
  rfl

/-- A literal is over before a separator. -/
theorem Token.Kind.endsBefore_literal {c : Char} (hc : isSeparator c = true) (v : Literal) :
    (Token.Kind.literal v).endsBefore (some c) = true := by
  cases v with
  | integer n => exact endsNumber_of_isSeparator hc
  | real x => exact endsNumber_of_isSeparator hc
  | boolean b => exact Token.Kind.endsBefore_of_word (fun _ => rfl) (by simp [hc])
  | _ => rfl

/-- A name is over before a separator or a joiner. -/
theorem Token.Kind.endsBefore_identifier {c : Char} (hc : (isSeparator c || isJoiner c) = true)
    (n : String) : (Token.Kind.identifier n).endsBefore (some c) = true :=
  endsBefore_of_word (fun _ => rfl) hc

/-- A keyword is over before a separator. -/
theorem Token.Kind.endsBefore_keyword {c : Char} (hc : isSeparator c = true) (k : Keyword) :
    (Token.Kind.keyword k).endsBefore (some c) = true :=
  endsBefore_of_word (fun _ => rfl) (by simp [hc])

/-- No digit begins a name. -/
theorem isDigit_head_of_isWord {word : List Char} (h : isWord word = true) (rest : List Char) :
    (word ++ rest).head?.any Char.isDigit = false := by
  cases word with
  | nil => simp [isWord] at h
  | cons c more =>
      rw [List.cons_append, List.head?_cons, Option.any_some, Bool.eq_false_iff]
      intro hdigit
      have hlt : c.toNat ≤ 57 := of_decide_eq_true (Bool.and_eq_true_iff.1 hdigit).2
      have hstart : startsWord c = true := (Bool.and_eq_true_iff.1 h).1
      rw [startsWord_of_lt (by omega)] at hstart
      contradiction

/-! ## Pieces that are read back -/

/-- Whether pieces are read back in front of every separator. -/
def ReadBack (pieces : List Piece) : Prop :=
  ∀ {c : Char} {rest : List Char} {kinds : List Token.Kind}, isSeparator c = true →
    Lexes (c :: rest) kinds → Prints pieces (c :: rest) kinds

namespace ReadBack

variable {ps qs : List Piece}

theorem nil : ReadBack [] := fun _ h => h

theorem name {n : String} (hn : (Token.Kind.identifier n).isWritable = true) :
    ReadBack [.name n] := by
  intro c rest kinds hc h
  have hends := Token.Kind.endsBefore_identifier (c := c) (by simp [hc]) n
  exact Prints.word hn hends h

theorem keyword (k : Keyword) : ReadBack [.keyword k] := by
  intro c rest kinds hc h
  exact Prints.word rfl (Token.Kind.endsBefore_keyword hc k) h

/-- A keyword, a blank and more are read back. -/
theorem keyword_blank (k : Keyword) (h : ReadBack ps) : ReadBack (.keyword k :: .blank :: ps) := by
  intro c rest kinds hc hrest
  exact Prints.word rfl (Token.Kind.endsBefore_keyword (c := ' ') rfl k) (h hc hrest).blank

/-- Pieces in parentheses are read back in front of everything. -/
theorem inParentheses (h : ReadBack ps) {rest : List Char} {kinds : List Token.Kind}
    (hrest : Lexes rest kinds) : Prints (inParentheses ps) rest kinds := by
  refine Prints.symbol (by decide) (fun _ => rfl) (Prints.append ?_ (h rfl))
  exact Prints.symbol (by decide) (fun _ => rfl) hrest

/-- Pieces with commas between them are read back. -/
theorem separated {pss : List (List Piece)} (h : ∀ ps ∈ pss, ReadBack ps) :
    ReadBack (separated pss) := by
  induction pss with
  | nil => exact nil
  | cons ps rest ih =>
      have hps : ReadBack ps := h ps (by simp)
      have hrest : ReadBack (Bucket.separated rest) := ih fun qs hqs => h qs (by simp [hqs])
      cases rest with
      | nil => exact @hps
      | cons qs rest =>
          intro c text kinds hc htext
          refine Prints.append ?_ (hps rfl)
          exact Prints.symbol (by decide) (fun _ => rfl) (hrest hc htext).blank

/-- A name, a colon and pieces are read back. -/
theorem name_colon {n : String} (hn : (Token.Kind.identifier n).isWritable = true)
    (h : ReadBack ps) : ReadBack (.name n :: .symbol .colon :: .blank :: ps) := by
  intro c rest kinds hc hrest
  refine Prints.word hn (Token.Kind.endsBefore_identifier (c := ':') rfl n) ?_
  exact Prints.symbol (by decide) (fun _ => rfl) (h hc hrest).blank

end ReadBack

/-! ## Expressions -/

/-- Whether an expression is over where the next character is a given one. -/
def Expression.endsBefore (next : Option Char) : Expression → Bool
  | .identifier n _ => (Token.Kind.identifier n).endsBefore next
  | .literal v _ => (Token.Kind.literal v).endsBefore next
  | .call _ _ _ _ => true
  | .assignment _ right _ => right.endsBefore next

/-- Every expression is over before a separator. -/
theorem Expression.endsBefore_of_isSeparator {c : Char} (hc : isSeparator c = true)
    (e : Expression) : e.endsBefore (some c) = true := by
  induction e using Expression.endsBefore.induct with
  | case1 n s => exact Token.Kind.endsBefore_identifier (by simp [hc]) n
  | case2 v s => exact Token.Kind.endsBefore_literal hc v
  | case3 receiver method arguments s => rfl
  | case4 left right s ih => exact ih

/-- An expression that needs no parentheses in front of a point is over before it. -/
theorem Expression.endsBefore_period {e : Expression} (h : e.parenthesizedReceiver = false) :
    e.endsBefore (some '.') = true := by
  cases e with
  | identifier n s => exact Token.Kind.endsBefore_identifier rfl n
  | literal v s => cases v with
    | integer n => simp [parenthesizedReceiver] at h
    | real x => simp [parenthesizedReceiver] at h
    | boolean b =>
        exact Token.Kind.endsBefore_of_word (k := .literal (.boolean b)) (fun _ => rfl) rfl
    | string t => rfl
    | character c => rfl
  | call receiver method arguments s => rfl
  | assignment left right s => simp [parenthesizedReceiver] at h

/-- The names and literals of the trees that are printed here. -/
abbrev Expression.Writable (e : Expression) : Prop := e.AllWords (·.isWritable = true)

mutual

/-- The pieces of an expression are read back where it is over. -/
theorem Expression.prints_pieces : ∀ (e : Expression), e.Writable → ∀ {rest : List Char}
    {kinds : List Token.Kind}, e.endsBefore rest.head? = true → Lexes rest kinds →
    Prints e.pieces rest kinds
  | .identifier n _, he, _, _, hends, h => Prints.word he hends h
  | .literal v _, he, _, _, hends, h => Prints.word he hends h
  | .call receiver method arguments _, he, rest, kinds, _, h => by
      obtain ⟨hreceiver, hmethod, harguments⟩ := he
      have hinside : ReadBack (separated (piecesOfExpressions arguments)) :=
        ReadBack.separated (readBack_piecesOfExpressions arguments harguments)
      have hcall : Prints (.symbol .period :: .name method ::
          inParentheses (separated (piecesOfExpressions arguments))) rest kinds := by
        -- A point in front of a digit would begin a number, but no name begins with a digit.
        have hdigit := isDigit_head_of_isWord (Bool.and_eq_true_iff.1 hmethod).1
        refine Prints.word rfl ?_ ?_
        · rw [textOf_cons, List.append_assoc]
          exact congrArg not (hdigit _)
        refine Prints.word hmethod (Token.Kind.endsBefore_identifier (c := '(') rfl method) ?_
        exact hinside.inParentheses h
      -- Without parentheses the receiver stands in front of the point itself.
      rw [Expression.pieces, Expression.guarded]
      cases hneeded : receiver.parenthesizedReceiver with
      | true =>
          have hback : ReadBack receiver.pieces := fun hc =>
            Expression.prints_pieces receiver hreceiver (receiver.endsBefore_of_isSeparator hc)
          exact Prints.append hcall hback.inParentheses
      | false =>
          exact Prints.append hcall fun hcall => Expression.prints_pieces receiver hreceiver
            (Expression.endsBefore_period hneeded) hcall
  | .assignment left right _, he, rest, kinds, hends, h => by
      have hright : Prints (.blank :: .symbol .equals :: .blank :: right.pieces) rest kinds :=
        ((Expression.prints_pieces right he.2 hends h).blank.word rfl rfl).blank
      rw [Expression.pieces, Expression.guarded]
      cases hneeded : left.parenthesizedTarget with
      | true =>
          have hback : ReadBack left.pieces := fun hc =>
            Expression.prints_pieces left he.1 (left.endsBefore_of_isSeparator hc)
          exact Prints.append hright hback.inParentheses
      | false =>
          exact Prints.append hright fun hright => Expression.prints_pieces left he.1
            (left.endsBefore_of_isSeparator (c := ' ') rfl) hright

/-- The pieces of each of some expressions are read back. -/
theorem readBack_piecesOfExpressions : ∀ (es : List Expression),
    AllWordsOfExpressions (·.isWritable = true) es → ∀ ps ∈ piecesOfExpressions es, ReadBack ps
  | [], _, ps, hps => by simp [piecesOfExpressions] at hps
  | e :: rest, hes, ps, hps => by
      rcases List.mem_cons.1 hps with rfl | hps
      · exact fun hc => e.prints_pieces hes.1 (e.endsBefore_of_isSeparator hc)
      · exact readBack_piecesOfExpressions rest hes.2 ps hps

end

/-- The pieces of an expression are read back. -/
theorem Expression.readBack_pieces {e : Expression} (he : e.Writable) : ReadBack e.pieces :=
  fun hc => e.prints_pieces he (e.endsBefore_of_isSeparator hc)

/-! ## Lines -/

/-- Whether a line is read back in front of every text. -/
def Line.IsReadBack (l : Line) : Prop :=
  ∀ {rest : List Char} {kinds : List Token.Kind}, Lexes rest kinds →
    Lexes (l.chars ++ rest) (l.kinds ++ kinds)

/-- A line is read back if its pieces are. -/
theorem Line.isReadBack {depth : Nat} {ps : List Piece} (hps : ReadBack ps) :
    (⟨depth, ps⟩ : Line).IsReadBack := by
  intro rest kinds h
  have hend : Lexes ('\n' :: rest) (.symbol .newline :: kinds) :=
    Lexes.word (k := .symbol .newline) rfl rfl h
  have hline := (hps (c := '\n') rfl hend).replicate_blank (2 * depth)
  simpa [Line.chars, Line.kinds, textOf, kindsOf] using hline

theorem Line.isReadBack_close (depth : Nat) : (Line.close depth).IsReadBack :=
  Line.isReadBack (ReadBack.keyword .endKw)

/-- Lines that are read back are read back together. -/
theorem lexes_lines {ls : List Line} (h : ∀ l ∈ ls, l.IsReadBack) :
    Lexes (ls.flatMap Line.chars) (ls.flatMap Line.kinds) := by
  induction ls with
  | nil => exact Lexes.nil
  | cons l rest ih =>
      rw [List.flatMap_cons, List.flatMap_cons]
      exact h l (by simp) (ih fun l' hl' => h l' (by simp [hl']))

/-! ## Statements -/

mutual

/-- The lines of a statement are read back. -/
theorem Statement.isReadBack_lines : ∀ (s : Statement) (depth : Nat),
    s.AllWords (·.isWritable = true) → ∀ l ∈ s.lines depth, l.IsReadBack
  | .conditional condition body alternatives otherwise _, depth, hs => by
      obtain ⟨hcondition, hbody, halternatives, hotherwise⟩ := hs
      rw [Statement.lines]
      simp only [List.forall_mem_cons, List.forall_mem_append]
      refine ⟨Line.isReadBack (ReadBack.keyword_blank .ifKw (Expression.readBack_pieces hcondition)),
        ⟨⟨isReadBack_linesOfBlock body _ hbody, isReadBack_linesOfAlternatives alternatives _
          halternatives⟩, isReadBack_linesOfOtherwise otherwise _ hotherwise⟩,
        Line.isReadBack_close depth, by simp⟩
  | .loop body _, depth, hs => by
      rw [Statement.lines]
      simp only [List.forall_mem_cons, List.forall_mem_append]
      exact ⟨Line.isReadBack (ReadBack.keyword .doKw), isReadBack_linesOfBlock body _ hs,
        Line.isReadBack_close depth, by simp⟩
  | .leave _, depth, _ => by
      rw [Statement.lines, List.forall_mem_singleton]
      exact Line.isReadBack (ReadBack.keyword .breakKw)
  | .cycle _, depth, _ => by
      rw [Statement.lines, List.forall_mem_singleton]
      exact Line.isReadBack (ReadBack.keyword .cycleKw)
  | .ret none _, depth, _ => by
      rw [Statement.lines, List.forall_mem_singleton]
      exact Line.isReadBack (ReadBack.keyword .retKw)
  | .ret (some value) _, depth, hs => by
      have hvalue : value.Writable := hs value rfl
      rw [Statement.lines, List.forall_mem_singleton]
      exact Line.isReadBack (ReadBack.keyword_blank .retKw (Expression.readBack_pieces hvalue))
  | .expression value _, depth, hs => by
      rw [Statement.lines, List.forall_mem_singleton]
      exact Line.isReadBack (Expression.readBack_pieces hs)

/-- The lines of statements are read back. -/
theorem isReadBack_linesOfBlock : ∀ (ss : List Statement) (depth : Nat),
    AllWordsOfBlock (·.isWritable = true) ss → ∀ l ∈ linesOfBlock depth ss, l.IsReadBack
  | [], _, _ => by simp [linesOfBlock]
  | s :: rest, depth, hss => by
      rw [linesOfBlock, List.forall_mem_append]
      exact ⟨s.isReadBack_lines depth hss.1, isReadBack_linesOfBlock rest depth hss.2⟩

/-- The lines of further conditions and their bodies are read back. -/
theorem isReadBack_linesOfAlternatives : ∀ (as : List (Expression × List Statement)) (depth : Nat),
    AllWordsOfAlternatives (·.isWritable = true) as →
    ∀ l ∈ linesOfAlternatives depth as, l.IsReadBack
  | [], _, _ => by simp [linesOfAlternatives]
  | (condition, body) :: rest, depth, has => by
      obtain ⟨hcondition, hbody, hrest⟩ := has
      rw [linesOfAlternatives, List.forall_mem_cons, List.forall_mem_append]
      exact ⟨Line.isReadBack
          (ReadBack.keyword_blank .elifKw (Expression.readBack_pieces hcondition)),
        isReadBack_linesOfBlock body _ hbody, isReadBack_linesOfAlternatives rest depth hrest⟩

/-- The lines for when no condition holds are read back. -/
theorem isReadBack_linesOfOtherwise : ∀ (ss : List Statement) (depth : Nat),
    AllWordsOfBlock (·.isWritable = true) ss → ∀ l ∈ linesOfOtherwise depth ss, l.IsReadBack
  | [], _, _ => by simp [linesOfOtherwise]
  | s :: rest, depth, hss => by
      rw [linesOfOtherwise, List.forall_mem_cons, List.forall_mem_append]
      exact ⟨Line.isReadBack (ReadBack.keyword .elseKw), s.isReadBack_lines _ hss.1,
        isReadBack_linesOfBlock rest _ hss.2⟩

end

/-! ## Declarations -/

/-- The pieces of an argument are read back. -/
theorem Argument.readBack_pieces {a : Argument} (ha : a.AllWords (·.isWritable = true)) :
    ReadBack a.pieces :=
  ReadBack.name_colon ha.1 (Expression.readBack_pieces ha.2)

/-- The pieces of a return type, if there is one. -/
def returnPieces : Option Expression → List Piece
  | some type => .symbol .colon :: .blank :: type.pieces
  | none => []

theorem Method.headerPieces_eq (m : Method) :
    m.headerPieces = .keyword .methodKw :: .blank :: .name m.name ::
      ((if m.arguments.isEmpty then [] else inParentheses (separated (m.arguments.map (·.pieces)))) ++
        returnPieces m.returns) := by
  rw [headerPieces]
  cases m.returns <;> rfl

/-- The first line of a method is read back. -/
theorem Method.readBack_headerPieces {m : Method} (hm : m.AllWords (·.isWritable = true)) :
    ReadBack m.headerPieces := by
  obtain ⟨hname, harguments, hreturns, -⟩ := hm
  -- The arguments and the return type stand behind the name without a blank.
  have hreturnPieces : ∀ {c : Char} {rest : List Char} {kinds : List Token.Kind},
      isSeparator c = true → Lexes (c :: rest) kinds →
      Prints (returnPieces m.returns) (c :: rest) kinds := by
    intro c rest kinds hc hrest
    cases hm : m.returns with
    | none => exact hrest
    | some type =>
        have htype : type.Writable := hreturns type (by rw [hm]; rfl)
        exact Prints.symbol (by decide) (fun _ => rfl)
          (Expression.readBack_pieces htype hc hrest).blank
  have hargumentPieces : ReadBack (separated (m.arguments.map (·.pieces))) := by
    refine ReadBack.separated ?_
    intro ps hps
    obtain ⟨a, ha, rfl⟩ := List.mem_map.1 hps
    exact Argument.readBack_pieces (harguments a ha)
  intro c rest kinds hc hrest
  have hname : ∀ {ps : List Piece}, (∃ d text, textOf ps ++ c :: rest = d :: text ∧
      (isSeparator d || isJoiner d) = true) → Prints ps (c :: rest) kinds →
      Prints (.keyword .methodKw :: .blank :: .name m.name :: ps) (c :: rest) kinds := by
    rintro ps ⟨d, text, hd, hends⟩ hps
    refine Prints.word rfl (Token.Kind.endsBefore_keyword (c := ' ') rfl _) (Prints.blank ?_)
    refine Prints.word hname ?_ hps
    rw [hd]
    exact Token.Kind.endsBefore_identifier hends m.name
  rw [headerPieces_eq]
  refine hname ?_ ?_
  · -- What stands behind the name: a parenthesis, a colon, or the end of the line.
    cases m.arguments with
    | cons a as => exact ⟨'(', _, rfl, rfl⟩
    | nil =>
        cases m.returns with
        | some type => exact ⟨':', _, rfl, rfl⟩
        | none => exact ⟨c, rest, rfl, by simp [hc]⟩
  · have hreturn := hreturnPieces hc hrest
    cases m.arguments.isEmpty with
    | true => exact hreturn
    | false =>
        exact Prints.append hreturn hargumentPieces.inParentheses

mutual

/-- The lines of a declaration are read back. -/
theorem Declaration.isReadBack_lines : ∀ (d : Declaration) (depth : Nat),
    d.AllWords (·.isWritable = true) → ∀ l ∈ d.lines depth, l.IsReadBack
  | .classDef name body _, depth, hd => by
      have hname : ReadBack [.keyword .classKw, .blank, .name name] :=
        ReadBack.keyword_blank .classKw (ReadBack.name hd.1)
      rw [Declaration.lines, List.forall_mem_cons, List.forall_mem_append, List.forall_mem_singleton]
      exact ⟨Line.isReadBack hname, isReadBack_linesOfDeclarations body _ hd.2,
        Line.isReadBack_close depth⟩
  | .method m, depth, hd => by
      rw [Declaration.lines, Method.lines, List.forall_mem_cons, List.forall_mem_append,
        List.forall_mem_singleton]
      exact ⟨Line.isReadBack (Method.readBack_headerPieces hd),
        isReadBack_linesOfBlock m.body _ hd.2.2.2, Line.isReadBack_close depth⟩
  | .field f, depth, hd => by
      rw [Declaration.lines, Field.line, List.forall_mem_singleton]
      exact Line.isReadBack (ReadBack.name_colon hd.1 (Expression.readBack_pieces hd.2))

/-- The lines of declarations are read back. -/
theorem isReadBack_linesOfDeclarations : ∀ (ds : List Declaration) (depth : Nat),
    AllWordsOfDeclarations (·.isWritable = true) ds →
    ∀ l ∈ linesOfDeclarations depth ds, l.IsReadBack
  | [], _, _ => by simp [linesOfDeclarations]
  | d :: rest, depth, hds => by
      rw [linesOfDeclarations, List.forall_mem_append]
      exact ⟨d.isReadBack_lines depth hds.1, isReadBack_linesOfDeclarations rest depth hds.2⟩

end

/-! ## Classes -/

/-- The tokens that a class is printed as. -/
def Class.kinds (c : Class) : List Token.Kind := c.lines.flatMap Line.kinds

/-- The text of a class is read as the tokens that the class is printed as. -/
theorem Class.lexes_render {c : Class} (hc : c.toDeclaration.AllWords (·.isWritable = true))
    (name : String) : Lexes (Source.ofText name c.render).chars c.kinds := by
  have hlines : ∀ l ∈ c.lines, l.IsReadBack := by
    rw [Class.lines]
    split
    · exact isReadBack_linesOfDeclarations c.body 0 hc.2
    · exact c.toDeclaration.isReadBack_lines 0 hc
  have hlexes := lexes_lines hlines
  have hchars : (Source.ofText name c.render).chars = c.lines.flatMap Line.chars := by
    rw [Source.chars, Source.ofText, Class.render, String.toList_ofList, String.toList_ofList,
      hlexes.dropByteOrderMark]
  rw [hchars]
  exact hlexes

end Bucket
