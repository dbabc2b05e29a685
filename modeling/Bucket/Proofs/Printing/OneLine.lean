/-
# Printed lines are one line

Whatever the names and literals of an expression hold, it is printed on one line, and so is the first line of
a method (`Expression.solid_text`, `Method.solid_header`): a line feed in a literal is escaped. None of these
begins with a blank, so how far a line is indented can be seen.
-/
import Bucket.Proofs.Listing.Plain
import Bucket.Proofs.Printing.Document

namespace Bucket

/-! ## Solid text -/

/-- Whether a text stands on one line and begins with something other than a blank. -/
structure Solid (text : List Char) : Prop where
  oneLine : '\n' ∉ text
  begins : ∃ first rest, text = first :: rest ∧ first ≠ ' '

theorem Solid.append {a b : List Char} (ha : Solid a) (hb : '\n' ∉ b) : Solid (a ++ b) := by
  obtain ⟨first, rest, rfl, hfirst⟩ := ha.begins
  refine ⟨?_, first, rest ++ b, rfl, hfirst⟩
  rw [List.mem_append]
  rintro (h | h)
  · exact ha.oneLine h
  · exact hb h

theorem Solid.cons {c : Char} {text : List Char} (hc : c ≠ '\n') (hblank : c ≠ ' ')
    (h : '\n' ∉ text) : Solid (c :: text) :=
  ⟨fun hmem => (List.mem_cons.1 hmem).elim (fun heq => hc heq.symm) h, c, text, rfl, hblank⟩

theorem Solid.of_isWord {word : List Char} (h : Lexer.isWord word = true) : Solid word := by
  cases word with
  | nil => cases h
  | cons c more =>
      refine ⟨(Text.plain_of_isWord h).not_mem_newline, c, more, rfl, ?_⟩
      rintro rfl
      have hblank : Lexer.startsWord ' ' = false := by decide +kernel
      rw [Lexer.isWord, hblank] at h
      cases h

theorem Solid.of_digits {digits : List Char} (hne : digits ≠ []) (h : ∀ c ∈ digits, c.isDigit) :
    Solid digits := by
  obtain ⟨c, more, rfl⟩ := List.exists_cons_of_ne_nil hne
  refine ⟨(Text.plain_of_digits h).not_mem_newline, c, more, rfl, ?_⟩
  rintro rfl
  exact absurd (h ' ' (by simp)) (by decide)

/-- No character is written with a line feed in a literal. -/
theorem Text.not_mem_written {quote : Char} (hq : quote = '\x22' ∨ quote = '\x27') (c : Char) :
    '\n' ∉ written quote c := by
  unfold written
  cases h : escape? quote c with
  | some e =>
      have hdenoted := denoted_of_escape? hq h
      have he : e ≠ '\n' := by
        rintro rfl
        cases hdenoted
      simpa using he.symm
  | none =>
      have hc : c ≠ '\n' := by
        rintro rfl
        cases h
      simpa using hc.symm

theorem Text.solid_quoted {quote : Char} (hq : quote = '\x22' ∨ quote = '\x27') (text : List Char) :
    Solid (quoted quote text) := by
  have hquote : quote ≠ '\n' ∧ quote ≠ ' ' := by rcases hq with rfl | rfl <;> decide
  refine Solid.cons hquote.1 hquote.2 ?_
  rw [List.mem_append, List.mem_flatMap, List.mem_singleton]
  rintro (⟨c, -, hc⟩ | h)
  · exact not_mem_written hq c hc
  · exact hquote.1 h.symm

/-- A literal stands on one line, whatever it holds. -/
theorem Literal.solid_spelling {v : Literal} (hv : (Token.Kind.literal v).isWritable = true) :
    Solid v.spelling := by
  cases v with
  | integer n =>
      exact Solid.of_digits Nat.toDigits_ne_nil fun c hc =>
        Nat.isDigit_of_mem_toDigits (by decide) (by decide) hc
  | real x =>
      have hx := Token.Kind.occurs_of_isWritable hv
      obtain ⟨n, hn, hchars, hwhole, -⟩ := Lexer.exists_number_of_real hx.1 (by simp [hx.2])
      have hplain := Text.plain_of_shaped hn.shaped
      obtain ⟨first, more, hfirst, hblank⟩ := (Solid.of_digits hwhole hn.whole).begins
      refine ⟨?_, first, more ++ (n.chars.drop n.whole.length), ?_, hblank⟩
      · rw [spelling, ← hchars]
        exact hplain.not_mem_newline
      · rw [spelling, ← hchars, Lexer.Number.chars, List.drop_left, hfirst, List.cons_append]
  | string s => exact Text.solid_quoted (.inl rfl) s.toList
  | character c => exact Text.solid_quoted (.inr rfl) [c]
  | boolean b => exact Solid.of_isWord (Token.Kind.ofWord_boolean b).1

theorem Token.Kind.solid_identifier {n : String} (hn : (identifier n).isWritable = true) :
    Solid n.toList :=
  Solid.of_isWord (Bool.and_eq_true_iff.1 hn).1

theorem not_mem_separated {pss : List (List Piece)} (h : ∀ ps ∈ pss, '\n' ∉ textOf ps) :
    '\n' ∉ textOf (separated pss) := by
  induction pss with
  | nil => simp [separated]
  | cons ps rest ih =>
      have hps := h ps (by simp)
      have hrest := ih fun qs hqs => h qs (by simp [hqs])
      cases rest with
      | nil => exact hps
      | cons qs rest =>
          have hcomma : '\n' ∉ (Piece.symbol .comma).chars ++ Piece.blank.chars := by decide
          rw [separated, textOf_append, textOf_cons, textOf_cons, ← List.append_assoc (Piece.chars _)]
          simp only [List.mem_append, not_or] at hcomma ⊢
          · exact ⟨hps, hcomma, hrest⟩
          · simp

theorem solid_inParentheses {ps : List Piece} (h : '\n' ∉ textOf ps) :
    Solid (textOf (inParentheses ps)) := by
  rw [textOf_inParentheses]
  refine Solid.cons (by decide) (by decide) ?_
  simpa using h

theorem solid_guarded {ps : List Piece} (h : Solid (textOf ps)) (needed : Bool) :
    Solid (textOf (Expression.guarded needed ps)) := by
  cases needed with
  | false => exact h
  | true => exact solid_inParentheses h.oneLine

mutual

/-- An expression stands on one line. -/
theorem Expression.solid_text : ∀ e : Expression, e.Writable → Solid (textOf e.pieces)
  | .identifier name _, he => by
      have hname := Token.Kind.solid_identifier he
      rwa [← List.append_nil name.toList] at hname
  | .literal value _, he => by
      have hvalue := Literal.solid_spelling he
      rwa [← List.append_nil value.spelling] at hvalue
  | .call receiver method arguments _, ⟨hreceiver, hmethod, harguments⟩ => by
      have hname := (Token.Kind.solid_identifier hmethod).oneLine
      have hinside := (solid_inParentheses (not_mem_separated
        (not_mem_piecesOfExpressions arguments harguments))).oneLine
      rw [Expression.pieces, textOf_append]
      refine (solid_guarded (receiver.solid_text hreceiver) _).append ?_
      rw [textOf_cons, textOf_cons, List.mem_append, List.mem_append]
      rintro (h | h | h)
      · exact absurd h (by decide)
      · exact hname h
      · exact hinside h
  | .assignment left right _, ⟨hleft, hright⟩ => by
      have hvalue := (right.solid_text hright).oneLine
      have hequals : '\n' ∉ textOf [.blank, .symbol .equals, .blank] := by decide
      rw [Expression.pieces, textOf_append]
      refine (solid_guarded (left.solid_text hleft) _).append ?_
      rw [show Piece.blank :: .symbol .equals :: .blank :: right.pieces =
        [.blank, .symbol .equals, .blank] ++ right.pieces from rfl, textOf_append, List.mem_append]
      rintro (h | h)
      · exact hequals h
      · exact hvalue h

theorem not_mem_piecesOfExpressions : ∀ es : List Expression,
    AllWordsOfExpressions (·.isWritable = true) es →
    ∀ ps ∈ piecesOfExpressions es, '\n' ∉ textOf ps
  | [], _, _, hps => by cases hps
  | e :: rest, ⟨he, hrest⟩, ps, hps => by
      rcases List.mem_cons.1 hps with rfl | hps
      · exact (e.solid_text he).oneLine
      · exact not_mem_piecesOfExpressions rest hrest ps hps

end

/-- A word in front of other text. -/
theorem Solid.word {word rest : List Char} (hword : Lexer.isWord word = true) (h : '\n' ∉ rest) :
    Solid (word ++ ' ' :: rest) :=
  (Solid.of_isWord hword).append (by simpa using h)

/-- A colon and a type stand on one line. -/
theorem Expression.not_mem_colon {type : Expression} (htype : type.Writable) :
    '\n' ∉ textOf (.symbol .colon :: .blank :: type.pieces) := by
  have hcolon : '\n' ∉ textOf [.symbol .colon, .blank] := by decide
  rw [show Piece.symbol .colon :: .blank :: type.pieces =
    [.symbol .colon, .blank] ++ type.pieces from rfl, textOf_append, List.mem_append]
  rintro (h | h)
  · exact hcolon h
  · exact (type.solid_text htype).oneLine h

theorem solid_typed {n : String} {type : Expression} (hn : (Token.Kind.identifier n).isWritable = true)
    (htype : type.Writable) : Solid (textOf (typed n type)) := by
  rw [typed, textOf_cons]
  exact (Token.Kind.solid_identifier hn).append (Expression.not_mem_colon htype)

/-- The first line of a method stands on one line. -/
theorem Method.solid_header {m : Method} (hm : m.AllWords (·.isWritable = true)) :
    Solid (textOf m.headerPieces) := by
  obtain ⟨hname, harguments, hreturns, -⟩ := hm
  have hlist : '\n' ∉ textOf (if m.arguments.isEmpty then [] else
      inParentheses (separated (m.arguments.map (·.pieces)))) := by
    split
    · simp
    · refine (solid_inParentheses (not_mem_separated fun ps hps => ?_)).oneLine
      obtain ⟨a, ha, rfl⟩ := List.mem_map.1 hps
      exact (solid_typed (harguments a ha).1 (harguments a ha).2).oneLine
  have hreturn : '\n' ∉ textOf (returnPieces m.returns) := by
    cases hr : m.returns with
    | none => simp [returnPieces]
    | some type => exact Expression.not_mem_colon (hreturns type (by rw [hr]; rfl))
  have hword : Lexer.isWord "method".toList = true := (Token.Kind.ofWord_keyword .methodKw).1
  rw [headerPieces_eq, textOf_cons, textOf_cons, textOf_cons, textOf_append]
  refine Solid.word hword ?_
  show '\n' ∉ m.name.toList ++ _
  simp only [List.mem_append, not_or]
  exact ⟨(Token.Kind.solid_identifier hname).oneLine, hlist, hreturn⟩

end Bucket
