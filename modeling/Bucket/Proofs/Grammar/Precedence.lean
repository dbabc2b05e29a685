/-
# Expressions are read as they are written

A parser that reads the tokens of a written expression holds, behind the last of them, an operand and
operators that wait for it, and applying these gives the tree that the expression stands for
(`Surface.Written.readAs`). So it hands on that tree, and goes on behind the text of the expression
(`Surface.run_written`).
-/
import Bucket.Proofs.Grammar.Operands
import Bucket.Proofs.Grammar.Surface
import Bucket.Proofs.Lexing.Spaced
import Bucket.Proofs.Parsing.Run

namespace Bucket

open Bucket.Parser

namespace Parser

/-! ## Operators that wait -/

variable {waiting ws : List Waiting} {context : Context} {op : InfixOp}

/-- The operators that bind tighter than one that is read are applied, and those outside them go on
waiting. -/
theorem applyTighter_append {level : Nat} (e : Expression) {follow : Nat} (hfollow : level ≤ follow)
    (hws : ∀ w ∈ ws, level < w.operandLevel ∧ level ≤ w.followLevel)
    (hwaiting : ∀ w ∈ waiting.head?, w.operandLevel ≤ level) :
    ∃ follow', level ≤ follow' ∧
      applyTighter level e follow (ws ++ waiting) = (applyAll e ws, waiting, follow') := by
  induction ws generalizing e follow with
  | nil =>
      refine ⟨follow, hfollow, ?_⟩
      cases waiting with
      | nil => rfl
      | cons w rest =>
          have hw : ¬ level < w.operandLevel := Nat.not_lt.2 (hwaiting w rfl)
          rw [List.nil_append, applyTighter, if_neg hw]
          rfl
  | cons w ws ih =>
      obtain ⟨hlevel, hnext⟩ := hws w List.mem_cons_self
      obtain ⟨follow', hle, heq⟩ := ih (w.apply e) hnext fun w' hw' =>
        hws w' (List.mem_cons_of_mem _ hw')
      refine ⟨follow', hle, ?_⟩
      rw [List.cons_append, applyTighter, if_pos hlevel, heq]
      rfl

/-- An operator behind an operand takes what binds tighter as its left operand. -/
theorem stepInfix_append (e : Expression)
    (hws : ∀ w ∈ ws, op.level < w.operandLevel ∧ op.level ≤ w.followLevel)
    (hcontext : context.level ≤ op.level) (hneeded : neededLevel waiting context ≤ op.level) :
    stepInfix op e (ws ++ waiting) context =
      some (.operand (.infixOp (applyAll e ws) op :: waiting) context) := by
  have hwaiting : ∀ w ∈ waiting.head?, w.operandLevel ≤ op.level := by
    cases waiting with
    | nil => simp
    | cons w rest => rintro w' ⟨⟩; exact hneeded
  obtain ⟨follow, hfollow, heq⟩ := applyTighter_append e op.level_le_nine hws hwaiting
  simp only [stepInfix, heq, hcontext, hfollow, and_self, if_true]

theorem stepPending_infix (p : Pending) (op : InfixOp) (span : Span) :
    stepPending p waiting context ⟨op.kind, span⟩ = stepInfix op p.value waiting context := by
  cases op with
  | assign => rfl
  | binary op => cases op <;> rfl

theorem stepPending_ends {t : Token} (ht : EndsExpr t.kind) (p : Pending) :
    stepPending p waiting context t = context.deliver (applyAll p.value waiting) t := by
  obtain ⟨k, span⟩ := t
  rcases ht with h | h | h | h <;> cases h <;> rfl

theorem stepOperand_prefix (op : PrefixOp) (span : Span)
    (hneeded : neededLevel waiting context ≤ 8) :
    stepOperand waiting context ⟨op.kind, span⟩ =
      some (.operand (.prefixOp op span :: waiting) context) := by
  have hneeded : neededLevel waiting context ≤ PrefixOp.level := hneeded
  cases op <;> simp [stepOperand, PrefixOp.kind, PrefixOp.ofKind?, hneeded]

end Parser

namespace Surface

/-! ## Methods -/

/-- The methods of operators are those that the parser calls. -/
theorem prefixMethod_eq (op : PrefixOp) : prefixMethod op = op.method := by
  cases op <;> rfl

theorem binaryMethod_eq (op : BinaryOp) : binaryMethod op = op.method := by
  cases op <;> rfl

/-! ## Levels -/

/-- The levels of an operator are those that the parser has for it. -/
theorem levels_eq (op : InfixOp) :
    (levels op).own = op.level ∧ (levels op).right = op.operandLevel := by
  cases op with
  | assign => exact ⟨rfl, rfl⟩
  | binary op => cases op <;> exact ⟨rfl, rfl⟩

/-- The level of an operator and that of its left operand. -/
theorem level_left (op : InfixOp) :
    (op.level = 1 ∧ (levels op).left = 2) ∨ (op.level = 2 ∧ (levels op).left = 3) ∨
      (op.level = 3 ∧ (levels op).left = 4) ∨ (op.level = 4 ∧ (levels op).left = 5) ∨
      (op.level = 5 ∧ (levels op).left = 6) ∨ (op.level = 6 ∧ (levels op).left = 6) ∨
      (op.level = 7 ∧ (levels op).left = 7) ∨ (op.level = 9 ∧ (levels op).left = 10) := by
  cases op with
  | assign => decide
  | binary op => cases op <;> decide

/-- An operator whose left operand may be an application of another one takes it, and all that its
right operand may be. -/
theorem takes_left {op op' : InfixOp} (h : (levels op).left ≤ op'.level) :
    op.level < op'.operandLevel ∧ op.level ≤ op'.followLevel ∧
      (levels op).left ≤ op'.operandLevel := by
  have hop := level_left op
  have hop' := op'.levels
  omega

/-! ## What was read of an expression -/

/-- Whether tokens lead, wherever an expression of some level may begin, to an operand and operators
that wait for it: applied to the operand they are the expression, and they are applied before any
operator that may have the expression on its left. An expression of the highest level leaves none, and
is a value that is no name if parentheses behind it call its value. -/
structure Reads (n : Nat) (x : Surface) (ts : List Token) (p : Pending) (ws : List Waiting) :
    Prop where
  value : (applyAll p.value ws).bare = x.desugar
  applied : ∀ w ∈ ws, ∀ op : InfixOp, (levels op).left ≤ n →
    op.level < w.operandLevel ∧ op.level ≤ w.followLevel
  whole : 10 ≤ n → ws = [] ∧ (x.isBare = false → ∃ e, p = .whole e)
  reads : ∀ waiting context, context.level ≤ 1 → neededLevel waiting context ≤ n →
    (State.operand waiting context).readTokens ts = some (.pending p (ws ++ waiting) context)

/-- Whether all tokens of some kinds are read so. -/
def ReadAs (n : Nat) (x : Surface) (w : List Token.Kind) : Prop :=
  ∀ ts : List Token, ts.map (·.kind) = w → ∃ p ws, x.Reads n ts p ws

/-- Whether all tokens of some kinds are read as arguments, with what closes them behind. -/
def ReadAsArguments (xs : List Surface) (v : List Token.Kind) : Prop :=
  ∀ ts : List Token, ts.map (·.kind) = v → ∃ es, bareExpressions es = desugarAll xs ∧
    ∀ (call : OpenCall) (closer : Token) waiting context,
      closer.kind = .symbol call.brackets.closer →
      (xs = [] → call.brackets = .round ∧ call.arguments = []) →
      (State.operand [] (.arguments call waiting context)).readTokens (ts ++ [closer]) =
        some (.pending (.whole ((call.addAll es).close closer.span)) waiting context)

/-- Whether all tokens of some kinds lead to the value of an expression. -/
def ReadAsValue (x : Surface) (w : List Token.Kind) : Prop :=
  ∀ ts : List Token, ts.map (·.kind) = w → ∃ e : Expression, e.bare = x.desugar ∧
    ∀ waiting context, context.level ≤ 1 → neededLevel waiting context ≤ 10 →
      (State.operand waiting context).readTokens ts = some (.pending (.whole e) waiting context)

variable {x y : Surface} {xs ys : List Surface} {w v : List Token.Kind} {ts : List Token}
  {p : Pending} {ws : List Waiting} {m n : Nat}

/-- An expression whose operators are all applied is handed on. -/
theorem Reads.deliver (h : x.Reads 1 ts p ws) {t : Token} (ht : EndsExpr t.kind) (context : Context)
    (hcontext : context.level ≤ 1) :
    (State.operand [] context).readTokens (ts ++ [t]) =
      context.deliver (applyAll p.value ws) t := by
  rw [State.readTokens_append, h.reads [] context hcontext hcontext, Option.bind_some,
    State.readTokens_cons, List.append_nil]
  show (stepPending p ws context t).bind _ = _
  rw [stepPending_ends ht]
  exact Option.bind_fun_some _

/-- What is read where a level is needed is read where a lower one is. -/
theorem ReadAs.lower (hle : m ≤ n) (h : x.ReadAs n w) : x.ReadAs m w := by
  intro ts hts
  obtain ⟨p, ws, hx⟩ := h ts hts
  refine ⟨p, ws, hx.value, ?_, ?_, ?_⟩
  · exact fun w hw op hop => hx.applied w hw op (Nat.le_trans hop hle)
  · exact fun hm => hx.whole (Nat.le_trans hm hle)
  · exact fun waiting context hcontext hneeded =>
      hx.reads waiting context hcontext (Nat.le_trans hneeded hle)

/-! ## Operands -/

/-- What is read of the highest level is an operand. -/
theorem ReadAs.operand (h : x.ReadAs 10 w) (hts : ts.map (·.kind) = w) :
    ∃ p : Pending, p.value.bare = x.desugar ∧
      ∀ waiting context, context.level ≤ 1 → neededLevel waiting context ≤ 10 →
        (State.operand waiting context).readTokens ts = some (.pending p waiting context) := by
  obtain ⟨p, ws, hx⟩ := h ts hts
  obtain ⟨rfl, -⟩ := hx.whole (Nat.le_refl 10)
  exact ⟨p, hx.value, hx.reads⟩

/-- A value is read as an expression of the highest level. -/
theorem ReadAsValue.readAs (h : x.ReadAsValue w) : x.ReadAs 10 w := by
  intro ts hts
  obtain ⟨e, he, hreads⟩ := h ts hts
  exact ⟨.whole e, [], he, by simp, fun _ => ⟨rfl, fun _ => ⟨e, rfl⟩⟩, hreads⟩

/-- An expression of the highest level is a value unless it is bare. -/
theorem ReadAs.value (h : x.ReadAs 10 w) (hx : x.isBare = false) : x.ReadAsValue w := by
  intro ts hts
  obtain ⟨p, ws, hr⟩ := h ts hts
  obtain ⟨rfl, hwhole⟩ := hr.whole (Nat.le_refl 10)
  obtain ⟨e, rfl⟩ := hwhole hx
  exact ⟨e, hr.value, hr.reads⟩

/-- An expression in parentheses is a value. -/
theorem ReadAs.group (h : x.ReadAs 1 w) :
    x.ReadAsValue (.symbol .openParenthesis :: (w ++ [.symbol .closeParenthesis])) := by
  intro ts hts
  obtain ⟨opener, inside, rfl, hopener, hinside⟩ := List.map_eq_cons_iff.1 hts
  obtain ⟨a, last, rfl, ha, hlast⟩ := List.map_eq_append_iff.1 hinside
  obtain ⟨closer, rfl, hcloser⟩ := List.map_eq_singleton_iff.1 hlast
  obtain ⟨p, ws, hx⟩ := h a ha
  refine ⟨(applyAll p.value ws).withSpan (opener.span + closer.span), ?_, ?_⟩
  · rw [Expression.bare_withSpan, hx.value]
  · intro waiting context _ _
    have hend : EndsExpr closer.kind := .inr (.inr (.inl hcloser))
    have hdeliver := hx.deliver hend (.group opener.span waiting context) (Nat.le_refl 1)
    rw [State.readTokens_cons]
    simp only [State.step, stepOperand, hopener, Option.bind_some, hdeliver, Context.deliver, hcloser]

/-- A literal is a value. -/
theorem readAs_literal (value : Literal) : (literal value).ReadAsValue [.literal value] := by
  intro ts hts
  obtain ⟨t, rfl, ht⟩ := List.map_eq_singleton_iff.1 hts
  refine ⟨.literal value t.span, rfl, fun waiting context _ _ => ?_⟩
  simp [State.step, stepOperand, ht]

theorem readAs_name (name : String) : (Surface.name name).ReadAs 10 [.identifier name] := by
  intro ts hts
  obtain ⟨t, rfl, ht⟩ := List.map_eq_singleton_iff.1 hts
  refine ⟨.name name t.span, [], rfl, by simp, fun _ => ⟨rfl, by simp [isBare]⟩, ?_⟩
  intro waiting context _ _
  simp [State.step, stepOperand, ht]

/-! ## Arguments -/

theorem readAs_noArguments : ReadAsArguments [] [] := by
  intro ts hts
  obtain rfl := List.map_eq_nil_iff.1 hts
  refine ⟨[], rfl, ?_⟩
  rintro ⟨brackets, receiver, method, arguments⟩ closer waiting context hcloser hempty
  obtain ⟨hround, hnone⟩ := hempty rfl
  obtain rfl : brackets = .round := hround
  obtain rfl : arguments = [] := hnone
  have hcloser : closer.kind = .symbol .closeParenthesis := hcloser
  simp [State.step, stepOperand, hcloser, PrefixOp.ofKind?, closeEmpty, OpenCall.addAll]

/-- The last argument is followed by what closes the arguments. -/
theorem ReadAs.oneArgument (h : x.ReadAs 1 w) : ReadAsArguments [x] w := by
  intro ts hts
  obtain ⟨p, ws, hx⟩ := h ts hts
  refine ⟨[applyAll p.value ws], by rw [bareExpressions, hx.value]; rfl, ?_⟩
  intro call closer waiting context hcloser _
  have hend : EndsExpr closer.kind := hcloser ▸ call.brackets.endsExpr_closer
  have hcomma : call.brackets.closer ≠ .comma := by cases call.brackets <;> decide
  rw [hx.deliver hend (.arguments call waiting context) (Nat.le_refl 1), OpenCall.addAll_cons,
    OpenCall.addAll_nil]
  simp [Context.deliver, hcloser, hcomma]

/-- All other arguments are followed by a comma. -/
theorem ReadAs.moreArguments (h : x.ReadAs 1 w) (hys : ReadAsArguments (y :: ys) v) :
    ReadAsArguments (x :: y :: ys) (w ++ .symbol .comma :: v) := by
  intro ts hts
  obtain ⟨a, rest, rfl, ha, hrest⟩ := List.map_eq_append_iff.1 hts
  obtain ⟨comma, b, rfl, hcomma, hb⟩ := List.map_eq_cons_iff.1 hrest
  obtain ⟨p, ws, hx⟩ := h a ha
  obtain ⟨es, hes, hreads⟩ := hys b hb
  refine ⟨applyAll p.value ws :: es, by rw [bareExpressions, hx.value, hes]; rfl, ?_⟩
  intro call closer waiting context hcloser _
  have hend : EndsExpr comma.kind := .inr (.inl hcomma)
  have hfirst := hx.deliver hend (.arguments call waiting context) (Nat.le_refl 1)
  have hdeliver : Context.deliver (applyAll p.value ws) comma (.arguments call waiting context) =
      some (.operand [] (.arguments (call.add (applyAll p.value ws)) waiting context)) := by
    simp [Context.deliver, hcomma]
  have hsplit : a ++ comma :: b ++ [closer] = (a ++ [comma]) ++ (b ++ [closer]) := by simp
  rw [hsplit, State.readTokens_append, hfirst, hdeliver, Option.bind_some,
    hreads (call.add (applyAll p.value ws)) closer waiting context hcloser (by simp),
    OpenCall.addAll_cons]

/-- Arguments in parentheses behind an operand make a call of it. -/
theorem ReadAsArguments.round (h : ReadAsArguments xs v)
    (hts : ts.map (·.kind) = .symbol .openParenthesis :: (v ++ [.symbol .closeParenthesis])) :
    ∃ es span, bareExpressions es = desugarAll xs ∧ ∀ p waiting context,
      (State.pending p waiting context).readTokens ts =
        some (.pending (.whole ((p.openCall.addAll es).close span)) waiting context) := by
  obtain ⟨opener, inside, rfl, hopener, hinside⟩ := List.map_eq_cons_iff.1 hts
  obtain ⟨a, last, rfl, ha, hlast⟩ := List.map_eq_append_iff.1 hinside
  obtain ⟨closer, rfl, hcloser⟩ := List.map_eq_singleton_iff.1 hlast
  obtain ⟨es, hes, hreads⟩ := h a ha
  refine ⟨es, closer.span, hes, fun p waiting context => ?_⟩
  have hround : closer.kind = .symbol p.openCall.brackets.closer := by
    rw [p.brackets_openCall, hcloser]
    rfl
  rw [State.readTokens_cons]
  simp only [State.step, stepPending, hopener, Option.bind_some]
  exact hreads p.openCall closer waiting context hround fun _ =>
    ⟨p.brackets_openCall, p.arguments_openCall⟩

/-- Arguments in square brackets behind an operand, of which there is one at least, index it. -/
theorem ReadAsArguments.square (h : ReadAsArguments (y :: ys) v)
    (hts : ts.map (·.kind) = .symbol .openBracket :: (v ++ [.symbol .closeBracket])) :
    ∃ es span, bareExpressions es = desugarAll (y :: ys) ∧ ∀ p waiting context,
      (State.pending p waiting context).readTokens ts =
        some (.pending (.whole ((p.openIndex.addAll es).close span)) waiting context) := by
  obtain ⟨opener, inside, rfl, hopener, hinside⟩ := List.map_eq_cons_iff.1 hts
  obtain ⟨a, last, rfl, ha, hlast⟩ := List.map_eq_append_iff.1 hinside
  obtain ⟨closer, rfl, hcloser⟩ := List.map_eq_singleton_iff.1 hlast
  obtain ⟨es, hes, hreads⟩ := h a ha
  refine ⟨es, closer.span, hes, fun p waiting context => ?_⟩
  rw [State.readTokens_cons]
  simp only [State.step, stepPending, hopener, Option.bind_some]
  exact hreads p.openIndex closer waiting context hcloser (by simp)

/-! ## Calls -/

/-- The operand of an open call, and its arguments, without places. -/
theorem bare_close (call : OpenCall) (es : List Expression) (span : Span) :
    ((call.addAll es).close span).bare =
      .call call.receiver.bare call.method (bareExpressions (call.arguments ++ es)) .first := rfl

/-- A name in front of arguments is called on the object itself. -/
theorem ReadAsArguments.nameCall (h : ReadAsArguments xs v) (f : String) :
    (Surface.nameCall f xs).ReadAsValue
      (.identifier f :: .symbol .openParenthesis :: (v ++ [.symbol .closeParenthesis])) := by
  intro ts hts
  obtain ⟨t, rest, rfl, ht, hrest⟩ := List.map_eq_cons_iff.1 hts
  obtain ⟨es, span, hes, hreads⟩ := h.round hrest
  refine ⟨((Pending.name f t.span).openCall.addAll es).close span, ?_, ?_⟩
  · rw [bare_close, desugar, ← hes]
    rfl
  · intro waiting context _ _
    rw [State.readTokens_cons]
    simp only [State.step, stepOperand, ht, Option.bind_some]
    exact hreads _ waiting context

/-- A member without arguments. -/
theorem ReadAs.member (h : x.ReadAs 10 w) (n : String) :
    (Surface.member x n).ReadAs 10 (w ++ [.symbol .period, .identifier n]) := by
  intro ts hts
  obtain ⟨a, rest, rfl, ha, hrest⟩ := List.map_eq_append_iff.1 hts
  obtain ⟨period, last, rfl, hperiod, hlast⟩ := List.map_eq_cons_iff.1 hrest
  obtain ⟨t, rfl, ht⟩ := List.map_eq_singleton_iff.1 hlast
  obtain ⟨p, hp, hreads⟩ := h.operand ha
  refine ⟨.member p.value n t.span, [], ?_, by simp, fun _ => ⟨rfl, by simp [isBare]⟩, ?_⟩
  · show Expression.call p.value.bare n [] .first = _
    rw [hp, desugar]
  · intro waiting context hcontext hneeded
    rw [State.readTokens_append, hreads waiting context hcontext hneeded]
    simp [State.step, stepPending, hperiod, ht]

/-- A member with arguments. -/
theorem ReadAs.memberCall (h : x.ReadAs 10 w) (hxs : ReadAsArguments xs v) (n : String) :
    (Surface.memberCall x n xs).ReadAsValue
      (w ++ .symbol .period :: .identifier n :: .symbol .openParenthesis ::
        (v ++ [.symbol .closeParenthesis])) := by
  intro ts hts
  obtain ⟨a, rest, rfl, ha, hrest⟩ := List.map_eq_append_iff.1 hts
  obtain ⟨period, rest, rfl, hperiod, hrest⟩ := List.map_eq_cons_iff.1 hrest
  obtain ⟨t, rest, rfl, ht, hrest⟩ := List.map_eq_cons_iff.1 hrest
  obtain ⟨p, hp, hreads⟩ := h.operand ha
  obtain ⟨es, span, hes, hround⟩ := hxs.round hrest
  refine ⟨((Pending.member p.value n t.span).openCall.addAll es).close span, ?_, ?_⟩
  · rw [bare_close, desugar, ← hes, ← hp]
    rfl
  · intro waiting context hcontext hneeded
    rw [State.readTokens_append, hreads waiting context hcontext hneeded, Option.bind_some,
      State.readTokens_cons, State.step, stepPending, hperiod]
    simp only [Option.bind_some, State.readTokens_cons, State.step, ht]
    exact hround _ waiting context

/-- A value in front of arguments is called by the method for that. -/
theorem ReadAsValue.call (h : x.ReadAsValue w) (hxs : ReadAsArguments xs v) :
    (Surface.call x xs).ReadAsValue
      (w ++ .symbol .openParenthesis :: (v ++ [.symbol .closeParenthesis])) := by
  intro ts hts
  obtain ⟨a, rest, rfl, ha, hrest⟩ := List.map_eq_append_iff.1 hts
  obtain ⟨e, he, hreads⟩ := h a ha
  obtain ⟨es, span, hes, hround⟩ := hxs.round hrest
  refine ⟨((Pending.whole e).openCall.addAll es).close span, ?_, ?_⟩
  · rw [bare_close, desugar, ← hes, ← he]
    rfl
  · intro waiting context hcontext hneeded
    rw [State.readTokens_append, hreads waiting context hcontext hneeded, Option.bind_some]
    exact hround _ waiting context

/-- An operand in front of indices. -/
theorem ReadAs.index (h : x.ReadAs 10 w) (hys : ReadAsArguments (y :: ys) v) :
    (Surface.index x y ys).ReadAsValue
      (w ++ .symbol .openBracket :: (v ++ [.symbol .closeBracket])) := by
  intro ts hts
  obtain ⟨a, rest, rfl, ha, hrest⟩ := List.map_eq_append_iff.1 hts
  obtain ⟨p, hp, hreads⟩ := h.operand ha
  obtain ⟨es, span, hes, hsquare⟩ := hys.square hrest
  refine ⟨(p.openIndex.addAll es).close span, ?_, ?_⟩
  · rw [bare_close, desugar, ← desugarAll, ← hes, ← hp]
    rfl
  · intro waiting context hcontext hneeded
    rw [State.readTokens_append, hreads waiting context hcontext hneeded, Option.bind_some]
    exact hsquare _ waiting context

/-! ## Operators -/

/-- An operator in front of its operand waits for it. -/
theorem ReadAs.unary (h : x.ReadAs 8 w) (op : PrefixOp) :
    (Surface.unary op x).ReadAs 8 (op.kind :: w) := by
  intro ts hts
  obtain ⟨⟨k, span⟩, rest, rfl, rfl, hrest⟩ := List.map_eq_cons_iff.1 hts
  obtain ⟨p, ws, hx⟩ := h rest hrest
  refine ⟨p, ws ++ [.prefixOp op span], ?_, ?_, by simp, ?_⟩
  · rw [applyAll_append]
    show (op.apply span (applyAll p.value ws)).bare = _
    rw [PrefixOp.bare_apply, op.apply_first (Expression.span_bare _), hx.value, desugar,
      prefixMethod_eq]
  · intro w hw op' hop'
    rcases List.mem_append.1 hw with hw | hw
    · exact hx.applied w hw op' hop'
    · obtain rfl := List.mem_singleton.1 hw
      have hlevel := level_left op'
      show op'.level < 8 ∧ op'.level ≤ 8
      omega
  · intro waiting context hcontext hneeded
    rw [State.readTokens_cons, State.step, stepOperand_prefix op span hneeded, Option.bind_some,
      hx.reads (.prefixOp op span :: waiting) context hcontext (Nat.le_refl 8), List.append_assoc]
    rfl

/-- An operator between operands takes the left one and waits for the right one. -/
theorem ReadAs.binary {op : InfixOp} (hx : x.ReadAs (levels op).left w)
    (hy : y.ReadAs (levels op).right v) :
    (Surface.binary op x y).ReadAs (levels op).own (w ++ op.kind :: v) := by
  obtain ⟨hown, hright⟩ := levels_eq op
  rw [hright] at hy
  rw [hown]
  intro ts hts
  obtain ⟨a, rest, rfl, ha, hrest⟩ := List.map_eq_append_iff.1 hts
  obtain ⟨⟨k, span⟩, b, rfl, rfl, hb⟩ := List.map_eq_cons_iff.1 hrest
  obtain ⟨p, ws, hx⟩ := hx a ha
  obtain ⟨q, vs, hy⟩ := hy b hb
  refine ⟨q, vs ++ [.infixOp (applyAll p.value ws) op], ?_, ?_, ?_, ?_⟩
  · rw [applyAll_append]
    show (op.apply (applyAll p.value ws) (applyAll q.value vs)).bare = _
    have hfirst := Expression.span_bare (applyAll p.value ws)
    have hsecond := Expression.span_bare (applyAll q.value vs)
    rw [InfixOp.bare_apply]
    cases op with
    | assign => rw [InfixOp.apply_assign hfirst hsecond, hx.value, hy.value, desugar]
    | binary op =>
        rw [InfixOp.apply_binary op hfirst hsecond, hx.value, hy.value, desugar, binaryMethod_eq]
  · intro w hw op' hop'
    obtain ⟨hlevel, hfollow, hleft⟩ := takes_left hop'
    rcases List.mem_append.1 hw with hw | hw
    · exact hy.applied w hw op' hleft
    · obtain rfl := List.mem_singleton.1 hw
      exact ⟨hlevel, hfollow⟩
  · intro hten
    have hnine := op.level_le_nine
    omega
  · intro waiting context hcontext hneeded
    have hlevel := level_left op
    have hstep : stepInfix op p.value (ws ++ waiting) context =
        some (.operand (.infixOp (applyAll p.value ws) op :: waiting) context) :=
      stepInfix_append p.value (fun w hw => hx.applied w hw op (Nat.le_refl _)) (by omega) hneeded
    rw [State.readTokens_append, hx.reads waiting context hcontext (by omega), Option.bind_some,
      State.readTokens_cons, State.step, stepPending_infix, hstep, Option.bind_some,
      hy.reads _ context hcontext (Nat.le_refl _), List.append_assoc]
    rfl

/-! ## Written expressions -/

mutual

/-- The tokens that an expression may be written as are read as that expression. -/
theorem Written.readAs {n : Nat} {x : Surface} {w : List Token.Kind} : Written n x w → x.ReadAs n w
  | .lower hle h => h.readAs.lower hle
  | .group h => h.readAs.group.readAs
  | .name n => readAs_name n
  | .literal value => (readAs_literal value).readAs
  | .nameCall f h => (h.readAs.nameCall f).readAs
  | .member n h => h.readAs.member n
  | .memberCall n h hxs => (h.readAs.memberCall hxs.readAs n).readAs
  | .call hx h hxs => ((h.readAs.value hx).call hxs.readAs).readAs
  | .callGroup h hxs => (h.readAs.group.call hxs.readAs).readAs
  | .index h hys => (h.readAs.index hys.readAs).readAs
  | .unary op h => h.readAs.unary op
  | .binary _ h h' => h.readAs.binary h'.readAs

/-- The tokens that arguments may be written as are read as those arguments. -/
theorem WrittenArguments.readAs {xs : List Surface} {v : List Token.Kind} :
    WrittenArguments xs v → ReadAsArguments xs v
  | .none => readAs_noArguments
  | .one h => h.readAs.oneArgument
  | .more h hys => h.readAs.moreArguments hys.readAs

end

end Surface

/-! ## Text -/

/-- Tokens with blanks between them are read one after the other, in front of what may follow an
expression. -/
theorem Spaced.exists_readTokens {kinds : List Token.Kind} {text rest : List Char}
    (h : Spaced kinds text) (hkinds : ∀ k ∈ kinds, k.isWritable = true)
    (hrest : rest.head?.all endsExpression = true) (p : Position) :
    ∃ ts : List Token, ts.map (·.kind) = kinds ∧ ∀ s s' : State, s.readTokens ts = some s' →
      s.run ⟨p, text ++ rest⟩ = s'.run ⟨p.after text, rest⟩ := by
  induction h generalizing p with
  | nil =>
      refine ⟨[], rfl, fun s s' h => ?_⟩
      obtain rfl := Option.some.inj h
      rfl
  | @blank kinds text c hc _ ih =>
      obtain ⟨ts, hts, hread⟩ := ih hkinds (p.advance c)
      refine ⟨ts, hts, fun s s' h => ?_⟩
      rw [List.cons_append, s.run_congr (Lexes.pull_blank hc p (text ++ rest)), hread s s' h]
      rfl
  | @word kinds text k hblank _ ih =>
      obtain ⟨ts, hts, hread⟩ :=
        ih (fun k' hk' => hkinds k' (List.mem_cons_of_mem _ hk')) (p.after k.spelling)
      have hk := hkinds k List.mem_cons_self
      have hends : k.endsBefore (text ++ rest).head? = true :=
        k.endsBefore_of_all_isBlank hblank hrest
      refine ⟨⟨k, ⟨p, p.after k.spelling⟩⟩ :: ts, congrArg (k :: ·) hts, fun s s' h => ?_⟩
      rw [State.readTokens_cons] at h
      obtain ⟨next, hnext, h⟩ := Option.bind_eq_some_iff.1 h
      rw [List.append_assoc, State.run_of_pull (Cursor.pull_of_spelling hk hends p)
        (Token.Kind.isEndOfFile_of_isWritable hk) hnext, hread next s' h, Position.after_append]

namespace Parser

/-- How a parser goes on behind a complete expression: it hands the expression, and the token that is
next, to what the expression is part of. -/
def Context.resume (context : Context) (e : Expression) (c : Cursor) : Except Diagnostic Class :=
  match c.pull with
  | (.error d, _) => .error d
  | (.ok t, next) =>
      match context.deliver e t with
      | some s => s.run next
      | none => .error (.syntactic context.expected.text t.kind.describe t.span.start)

/-- An operand is a complete expression, with the operators that wait for it, where one ends. -/
theorem State.run_pending {rest : List Char} (hrest : rest.head?.all endsExpression = true)
    (operand : Pending) (waiting : List Waiting) (context : Context) (p : Position) :
    (State.pending operand waiting context).run ⟨p, rest⟩ =
      context.resume (applyAll operand.value waiting) ⟨p, rest⟩ := by
  cases rest with
  | nil =>
      have hpull : Cursor.pull ⟨p, []⟩ = (.ok (.endOfFile p), ⟨p, []⟩) := Cursor.pull_of_end rfl
      have hdeliver := context.deliver_endOfFile (applyAll operand.value waiting) (.point p)
      rw [State.run_eq, Context.resume, hpull]
      simp only [Token.endOfFile, hdeliver]
      rfl
  | cons c more =>
      -- The character is a token of its own, which ends the expression.
      have hsymbol : ∃ k : Token.Kind, k.isWritable = true ∧ k.spelling = [c] ∧ EndsExpr k ∧
          ∀ next, k.endsBefore next = true := by
        simp only [List.head?_cons, Option.all_some, endsExpression, Bool.or_eq_true,
          beq_iff_eq] at hrest
        rcases hrest with ((rfl | rfl) | rfl) | rfl
        · exact ⟨.symbol .newline, rfl, rfl, .inl rfl, fun _ => rfl⟩
        · exact ⟨.symbol .comma, rfl, rfl, .inr (.inl rfl), fun _ => rfl⟩
        · exact ⟨.symbol .closeParenthesis, rfl, rfl, .inr (.inr (.inl rfl)), fun _ => rfl⟩
        · exact ⟨.symbol .closeBracket, rfl, rfl, .inr (.inr (.inr rfl)), fun _ => rfl⟩
      obtain ⟨k, hk, hspelling, hends, hover⟩ := hsymbol
      have hpull := Cursor.pull_of_spelling hk (hover more.head?) p
      rw [hspelling, List.singleton_append] at hpull
      have hstep : stepPending operand waiting context ⟨k, ⟨p, p.after [c]⟩⟩ =
          context.deliver (applyAll operand.value waiting) ⟨k, ⟨p, p.after [c]⟩⟩ :=
        stepPending_ends hends operand
      rw [State.run_eq, Context.resume, hpull]
      simp only [Token.isEndOfFile, Token.Kind.isEndOfFile_of_isWritable hk, State.step, hstep]
      rfl

end Parser

/-- An expression that is written with blanks between its tokens, where a new line, a comma, a closing
bracket or the end of the file follows, is read as the tree that it stands for, and the parser goes on
behind its text. -/
theorem Surface.run_written {x : Surface} {w : List Token.Kind} {text rest : List Char}
    (hx : x.Written 1 w) (hw : ∀ k ∈ w, k.isWritable = true) (htext : Spaced w text)
    (hrest : rest.head?.all endsExpression = true) (p : Position) :
    ∃ e : Expression, e.bare = x.desugar ∧ ∀ context : Context, context.level ≤ 1 →
      (State.operand [] context).run ⟨p, text ++ rest⟩ =
        context.resume e ⟨p.after text, rest⟩ := by
  obtain ⟨ts, hts, hrun⟩ := htext.exists_readTokens hw hrest p
  obtain ⟨operand, ws, hread⟩ := hx.readAs ts hts
  refine ⟨applyAll operand.value ws, hread.value, fun context hcontext => ?_⟩
  have hreads := hread.reads [] context hcontext hcontext
  rw [List.append_nil] at hreads
  rw [hrun _ _ hreads, State.run_pending hrest]

/-- A sign in front of a power applies to the power, and the sign in its exponent to the exponent. -/
theorem Surface.run_written_signs :
    Surface.Written 1 (.unary .negative (.binary (.binary .pow) (.name "a")
        (.unary .negative (.name "b"))))
      [.symbol .minus, .identifier "a", .symbol .caret, .symbol .minus, .identifier "b"] ∧
    ∃ e : Expression,
      e.bare = .call (.call (.identifier "a" .first) "__pow__"
        [.call (.identifier "b" .first) "__neg__" [] .first] .first) "__neg__" [] .first ∧
      ∀ context : Context, context.level ≤ 1 →
        (State.operand [] context).run ⟨.first, "- a ^ - b".toList ++ ['\n']⟩ =
          context.resume e ⟨Position.first.after "- a ^ - b".toList, ['\n']⟩ := by
  have hx : Surface.Written 1 (.unary .negative (.binary (.binary .pow) (.name "a")
        (.unary .negative (.name "b"))))
      [.symbol .minus, .identifier "a", .symbol .caret, .symbol .minus, .identifier "b"] :=
    .lower (by decide) (.unary .negative (.lower (by decide) (.binary (.binary .pow) (.name "a")
      (.unary .negative (.lower (by decide) (.name "b"))))))
  have htext : Spaced
      [.symbol .minus, .identifier "a", .symbol .caret, .symbol .minus, .identifier "b"]
      "- a ^ - b".toList :=
    .word (.symbol .minus) rfl (.blank rfl (.word (.identifier "a") rfl (.blank rfl
      (.word (.symbol .caret) rfl (.blank rfl (.word (.symbol .minus) rfl (.blank rfl
        (.word (.identifier "b") rfl .nil))))))))
  exact ⟨hx, Surface.run_written hx (by decide +kernel) htext rfl .first⟩

end Bucket
