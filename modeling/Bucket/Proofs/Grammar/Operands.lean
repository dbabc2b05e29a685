/-
# Reading the tokens of an expression

The tokens that an expression may begin with or go on with are those that a parser reads there, and
what it then demands of the rest is what the grammar demands (`Context.takes_iff`,
`Pending.takes_iff`). Operators that wait need operands of ever lower levels from the innermost
outward (`Descends`), and so an operator that an inner one cannot leave to its right operand can be
taken by none of those outside it either.
-/
import Bucket.Proofs.Grammar.Demand

namespace Bucket

open Bucket.Parser

@[simp] theorem Expression.withSpan_span (e : Expression) : e.withSpan e.span = e := by
  cases e <;> rfl

/-! ## What expressions begin with -/

namespace Grammar

/-- Whether there is a first token, and it is of some form. -/
def Heads (P : Token.Kind → Prop) : Kinds → Prop
  | [] => False
  | k :: _ => P k

theorem Heads.imp {P Q : Token.Kind → Prop} (h : ∀ k, P k → Q k) :
    ∀ {i : Kinds}, Heads P i → Heads Q i
  | _ :: _, hi => h _ hi

/-- Whether a token may be the first one of an operand. -/
def BeginsOperand : Token.Kind → Prop
  | .identifier _ | .literal _ | .symbol .openParenthesis => True
  | _ => False

/-- Whether a token may be the first one of an expression. -/
def BeginsExpr (k : Token.Kind) : Prop := BeginsOperand k ∨ (PrefixOp.ofKind? k).isSome

variable {n : Nat} {i r : Kinds} {e : Expression} {k : Token.Kind}

theorem PostfixExpr.begins (h : PostfixExpr i r e) : Heads BeginsOperand i := by
  obtain ⟨hprimary, -⟩ := h
  cases hprimary <;> trivial

theorem Climb.begins (h : Climb n i r e) : Heads BeginsExpr i := by
  cases h with
  | prefixOp hop => exact .inr (Option.isSome_of_eq_some hop)
  | operand h => exact h.begins.imp fun _ => .inl

theorem Expr.begins (h : Expr i r e) : Heads BeginsExpr i := h.climb.begins

/-- Whether a name is called as it stands or as a value, the call is the same. -/
theorem postfixExpr_identifier_iff {name : String} :
    PostfixExpr (.identifier name :: i) r e ↔
      ∃ h, PostfixTail (.name name) i r h ∧ h.tree = e := by
  constructor
  · rintro ⟨hprimary, htail⟩
    -- Arguments may belong to the name or come behind it.
    cases hprimary with
    | name => exact ⟨_, htail, rfl⟩
    | nameCall hargs => exact ⟨_, .call hargs htail, rfl⟩
  · rintro ⟨h, htail, rfl⟩
    exact .mk .name htail

theorem postfixExpr_literal_iff {v : Literal} :
    PostfixExpr (.literal v :: i) r e ↔
      ∃ h, PostfixTail (.value (.literal v .first)) i r h ∧ h.tree = e := by
  constructor
  · rintro ⟨⟨⟩, htail⟩
    exact ⟨_, htail, rfl⟩
  · rintro ⟨h, htail, rfl⟩
    exact .mk .literal htail

theorem postfixExpr_openParenthesis_iff :
    PostfixExpr (.symbol .openParenthesis :: i) r e ↔
      ∃ f j h, Expr i (.symbol .closeParenthesis :: j) f ∧ PostfixTail (.value f) j r h ∧
        h.tree = e := by
  constructor
  · rintro ⟨hprimary, htail⟩
    cases hprimary with
    | group hinner => exact ⟨_, _, _, hinner, htail, rfl⟩
  · rintro ⟨f, j, h, hinner, htail, rfl⟩
    exact .mk (.group hinner) htail

/-- A token that is an operator in front of its operand begins no operand. -/
theorem not_beginsOperand_of_ofKind? {op : PrefixOp} (hop : PrefixOp.ofKind? k = some op) :
    ¬ BeginsOperand k := by
  intro hk
  unfold BeginsOperand at hk
  split at hk
  · simp [PrefixOp.ofKind?] at hop
  · simp [PrefixOp.ofKind?] at hop
  · simp [PrefixOp.ofKind?] at hop
  · exact hk

theorem climb_prefix_iff {op : PrefixOp} (hop : PrefixOp.ofKind? k = some op) :
    Climb n (k :: i) r e ↔ n ≤ PrefixOp.level ∧
      ∃ f j, Climb PrefixOp.level i j f ∧
        ClimbTail n PrefixOp.level (op.apply .first f) j r e := by
  constructor
  · intro h
    cases h with
    | prefixOp hop' hn h t =>
        obtain rfl := Option.some.inj (hop.symm.trans hop')
        exact ⟨hn, _, _, h, t⟩
    | operand h t => exact absurd h.begins (not_beginsOperand_of_ofKind? hop)
  · rintro ⟨hn, f, j, h, t⟩
    exact .prefixOp hop hn h t

theorem climb_operand_iff (hk : PrefixOp.ofKind? k = none) :
    Climb n (k :: i) r e ↔ ∃ f j, PostfixExpr (k :: i) j f ∧ ClimbTail n 9 f j r e := by
  constructor
  · intro h
    cases h with
    | prefixOp hop _ _ _ => simp [hk] at hop
    | operand h t => exact ⟨_, _, h, t⟩
  · rintro ⟨f, j, h, t⟩
    exact .operand h t

end Grammar

namespace Parser

open Grammar (Kinds Climb Expr PostfixExpr Head Heads)

variable {ds : List Declaration} {i : Kinds} {k : Token.Kind}

/-! ## What ends expressions -/

/-- Whether a token may be the first one behind an expression. -/
def EndsExpr (k : Token.Kind) : Prop :=
  k = .symbol .newline ∨ k = .symbol .comma ∨ k = .symbol .closeParenthesis ∨
    k = .symbol .closeBracket

theorem EndsExpr.ofKind?_eq_none (h : EndsExpr k) : InfixOp.ofKind? k = none := by
  rcases h with rfl | rfl | rfl | rfl <;> rfl

theorem Brackets.endsExpr_closer (b : Brackets) : EndsExpr (.symbol b.closer) := by
  cases b with
  | round => exact .inr (.inr (.inl rfl))
  | square => exact .inr (.inr (.inr rfl))

theorem Next.heads {demand : Kinds → Prop} (h : Next k demand i) : Heads (· = k) i := by
  cases i with
  | nil => exact h
  | cons k' j => exact h.1

theorem exists_of_next {demand : Kinds → Prop} (h : Next k demand i) : ∃ j, i = k :: j := by
  cases i with
  | nil => exact h.elim
  | cons k' j => exact ⟨j, by rw [h.1]⟩

/-- Behind an expression there is a token that ends it. -/
theorem Slot.TakesValue.ends {s : Slot} {e : Expression} (h : s.TakesValue ds e i) :
    Heads EndsExpr i := by
  cases s with
  | argument name span header =>
      rcases h with h | h
      · exact h.heads.imp fun _ hk => .inr (.inl hk)
      · exact h.heads.imp fun _ hk => .inr (.inr (.inl hk))
  | _ => exact (Next.heads h).imp fun _ hk => .inl hk

theorem Context.TakesValue.ends {c : Context} {e : Expression} (h : c.TakesValue ds e i) :
    Heads EndsExpr i := by
  cases c with
  | slot s => exact Slot.TakesValue.ends h
  | group opener waiting outer => exact (Next.heads h).imp fun _ hk => .inr (.inr (.inl hk))
  | arguments call waiting outer =>
      rcases h with h | h
      · refine h.heads.imp fun k hk => ?_
        rw [hk]
        exact call.brackets.endsExpr_closer
      · exact h.heads.imp fun _ hk => .inr (.inl hk)

theorem Context.not_takesValue {c : Context} {e : Expression} (hk : ¬ EndsExpr k) :
    ¬ c.TakesValue ds e (k :: i) :=
  fun h => hk (Context.TakesValue.ends h)

/-! ## Operators that wait -/

/-- Whether the levels that the waiting operators need do not rise from the innermost outward. -/
def Descends (context : Context) : List Waiting → Prop
  | [] => True
  | w :: waiting => neededLevel waiting context ≤ w.operandLevel ∧ Descends context waiting

/-- Behind a token that is no operator, all waiting operators are applied. -/
theorem takesTail_iff_of_none (hk : InfixOp.ofKind? k = none) (context : Context)
    (take : Expression → Kinds → Prop) (waiting : List Waiting) (follow : Nat) (e : Expression) :
    TakesTail context take waiting follow e (k :: i) ↔ take (applyAll e waiting) (k :: i) := by
  -- At each waiting operator the operand is over.
  have hdone : ∀ waiting follow e, TakesTail context take waiting follow e (k :: i) ↔
      TakesOperand context take waiting e (k :: i) := by
    intro waiting follow e
    constructor
    · rintro ⟨f, r, htail, h⟩
      cases htail with
      | done => exact h
      | op hop => simp [hk] at hop
    · intro h
      exact ⟨e, _, .done, h⟩
  rw [hdone]
  induction waiting generalizing e with
  | nil => rfl
  | cons w waiting ih => exact (hdone waiting w.followLevel (w.apply e)).trans (ih _)

theorem not_takesTail_nil (context : Context) (waiting : List Waiting) (follow : Nat)
    (e : Expression) : ¬ TakesTail context (context.TakesValue ds) waiting follow e [] := by
  induction waiting generalizing e follow with
  | nil =>
      rintro ⟨f, r, ⟨⟩, h⟩
      exact Context.TakesValue.ends h
  | cons w waiting ih =>
      rintro ⟨f, r, ⟨⟩, h⟩
      exact ih _ _ h

/-- An operator that a waiting one leaves to what is outside does not lie between the two levels of
that one. -/
theorem Waiting.followLevel_lt {op : InfixOp} {w : Waiting} (h : w.operandLevel ≤ op.level) :
    w.followLevel < op.level := by
  have hop := op.levels
  cases w with
  | prefixOp op' opener =>
      simp only [operandLevel, followLevel, PrefixOp.level] at h ⊢
      omega
  | infixOp left op' =>
      have hop' := op'.levels
      simp only [operandLevel, followLevel] at h ⊢
      omega

theorem Waiting.operandLevel_le (w : Waiting) : w.operandLevel ≤ 8 := by
  cases w with
  | prefixOp op opener => exact Nat.le_refl 8
  | infixOp left op =>
      have hop := op.levels
      show op.operandLevel ≤ 8
      omega

theorem InfixOp.not_endsExpr {op : InfixOp} (hop : ofKind? k = some op) : ¬ EndsExpr k := by
  intro hk
  simp [hk.ofKind?_eq_none] at hop

/-- The context needs no higher level than the operators that wait in it. -/
theorem Descends.level_le {context : Context} {n : Nat} :
    ∀ {waiting : List Waiting}, Descends context waiting → neededLevel waiting context ≤ n →
      context.level ≤ n
  | [], _, hn => hn
  | _ :: _, h, hn => h.2.level_le (Nat.le_trans h.1 hn)

/-- An operator above the level that may follow is not taken outside either, when the operators that
wait there need no higher level than its own. -/
theorem Descends.not_takesTail {op : InfixOp} (hop : InfixOp.ofKind? k = some op)
    {context : Context} {waiting : List Waiting} {follow : Nat} {e : Expression}
    (hdescends : Descends context waiting) (hlevel : neededLevel waiting context ≤ op.level)
    (hfollow : follow < op.level) :
    ¬ TakesTail context (context.TakesValue ds) waiting follow e (k :: i) := by
  induction waiting generalizing follow e with
  | nil =>
      rintro ⟨f, r, htail, h⟩
      cases htail with
      | done => exact Context.not_takesValue (InfixOp.not_endsExpr hop) h
      | op hop' _ hle _ _ =>
          obtain rfl := Option.some.inj (hop.symm.trans hop')
          omega
  | cons w waiting ih =>
      rintro ⟨f, r, htail, h⟩
      cases htail with
      -- The operand of the waiting operator is over, so the same holds outside it.
      | done =>
          exact ih hdescends.2 (Nat.le_trans hdescends.1 hlevel) (Waiting.followLevel_lt hlevel) h
      | op hop' _ hle _ _ =>
          obtain rfl := Option.some.inj (hop.symm.trans hop')
          omega

/-- An operator behind an operand takes what the operators that bind tighter make of it as its left
operand, if it may stand there at all. -/
theorem takesTail_op_iff {op : InfixOp} (hop : InfixOp.ofKind? k = some op) {context : Context}
    {waiting : List Waiting} (hdescends : Descends context waiting) (follow : Nat)
    (e : Expression) :
    TakesTail context (context.TakesValue ds) waiting follow e (k :: i) ↔
      (context.level ≤ op.level ∧ op.level ≤ (applyTighter op.level e follow waiting).2.2) ∧
        ∃ f r, Climb op.operandLevel i r f ∧
          TakesTail context (context.TakesValue ds) (applyTighter op.level e follow waiting).2.1
            op.followLevel (op.apply (applyTighter op.level e follow waiting).1 f) r := by
  induction waiting generalizing follow e with
  | nil =>
      constructor
      · rintro ⟨g, r, htail, h⟩
        cases htail with
        | done => exact absurd h (Context.not_takesValue (InfixOp.not_endsExpr hop))
        | op hop' hlevel hfollow hright t =>
            obtain rfl := Option.some.inj (hop.symm.trans hop')
            exact ⟨⟨hlevel, hfollow⟩, _, _, hright, _, _, t, h⟩
      · rintro ⟨⟨hlevel, hfollow⟩, f, r, hright, g, s, t, h⟩
        exact ⟨g, s, .op hop hlevel hfollow hright t, h⟩
  | cons w waiting ih =>
      rw [applyTighter]
      split
      case isTrue hlt =>
        -- The waiting operator binds tighter, so nothing is left of its operand.
        rw [← ih hdescends.2]
        constructor
        · rintro ⟨g, r, htail, h⟩
          cases htail with
          | done => exact h
          | op hop' hlevel _ _ _ =>
              obtain rfl := Option.some.inj (hop.symm.trans hop')
              exact absurd hlevel (Nat.not_le.2 hlt)
        · intro h
          exact ⟨e, _, .done, h⟩
      case isFalse hle =>
        have hle : w.operandLevel ≤ op.level := Nat.not_lt.1 hle
        -- The operand of the waiting operator goes on with the new one. If it were over, no operator
        -- outside could take the new one either.
        constructor
        · rintro ⟨g, r, htail, h⟩
          cases htail with
          | done =>
              exact absurd h (hdescends.2.not_takesTail hop (Nat.le_trans hdescends.1 hle)
                (Waiting.followLevel_lt hle))
          | op hop' _ hfollow hright t =>
              obtain rfl := Option.some.inj (hop.symm.trans hop')
              exact ⟨⟨hdescends.level_le hle, hfollow⟩, _, _, hright, _, _, t, h⟩
        · rintro ⟨⟨-, hfollow⟩, f, r, hright, g, s, t, h⟩
          exact ⟨g, s, .op hop hle hfollow hright t, h⟩

/-! ## Where operands begin -/

namespace Context

theorem not_takesEmpty (hk : k ≠ .symbol .closeParenthesis) (waiting : List Waiting)
    (c : Context) : ¬ c.TakesEmpty ds waiting (k :: i) := by
  cases c with
  | slot s => exact id
  | group opener outerWaiting outer => exact id
  | arguments call outerWaiting outer =>
      rintro ⟨-, h⟩
      exact hk h.1

/-- What is demanded where a whole expression is to be read. -/
theorem takes_nil_iff {c : Context} (hlevel : c.level = 1) :
    c.Takes ds [] i ↔ (∃ e r, Expr i r e ∧ c.TakesValue ds e r) ∨ c.TakesEmpty ds [] i := by
  rw [Takes, show neededLevel [] c = 1 from hlevel]
  simp only [Grammar.climb_one_iff]
  rfl

/-- Where an expression ends its line, it is demanded with the line end. -/
theorem takes_line_iff {s : Slot} (hlevel : s.level = 1) {demand : Expression → Kinds → Prop}
    (hs : ∀ e, s.TakesValue ds e = Next (.symbol .newline) (demand e)) :
    (slot s).Takes ds [] i ↔ ∃ e j, Expr i (.symbol .newline :: j) e ∧ demand e j := by
  rw [takes_nil_iff (c := slot s) hlevel]
  constructor
  · rintro (⟨e, r, he, h⟩ | h)
    · rw [TakesValue, hs] at h
      obtain ⟨j, rfl⟩ := exists_of_next h
      exact ⟨e, j, he, h.2⟩
    · exact h.elim
  · rintro ⟨e, j, he, h⟩
    refine .inl ⟨e, _, he, ?_⟩
    rw [TakesValue, hs]
    exact ⟨rfl, h⟩

/-- An operand of the highest level is demanded where no operator begins an expression. -/
theorem takes_operand_iff (hnone : PrefixOp.ofKind? k = none)
    (hclose : k ≠ .symbol .closeParenthesis) (waiting : List Waiting) (c : Context) :
    c.Takes ds waiting (k :: i) ↔
      ∃ f j, PostfixExpr (k :: i) j f ∧ TakesTail c (c.TakesValue ds) waiting 9 f j := by
  constructor
  · rintro (⟨e, r, hclimb, h⟩ | h)
    · obtain ⟨f, j, hf, t⟩ := (Grammar.climb_operand_iff hnone).1 hclimb
      exact ⟨f, j, hf, e, r, t, h⟩
    · exact absurd h (not_takesEmpty hclose waiting c)
  · rintro ⟨f, j, hf, e, r, t, h⟩
    exact .inl ⟨e, r, (Grammar.climb_operand_iff hnone).2 ⟨f, j, hf, t⟩, h⟩

/-- Brackets around an expression are read as the beginning of an operand. -/
theorem takes_group_iff (waiting : List Waiting) (c : Context) :
    (group .first waiting c).Takes ds [] i ↔
      ∃ f j, PostfixExpr (.symbol .openParenthesis :: i) j f ∧
        TakesTail c (c.TakesValue ds) waiting 9 f j := by
  rw [takes_nil_iff rfl]
  -- Brackets leave nothing in a tree but its place, and there are no places.
  have hbare : ∀ {f : Expression}, f.span = .first → f.withSpan (.first + .first) = f := by
    intro f hf
    rw [Span.first_add_first, ← hf, Expression.withSpan_span]
  constructor
  · rintro (⟨e, r, he, h⟩ | h)
    · obtain ⟨j, rfl⟩ := exists_of_next h
      obtain ⟨h', s, htail, h⟩ := h.2
      rw [Pending.head, hbare he.span] at htail
      exact ⟨_, _, Grammar.postfixExpr_openParenthesis_iff.2 ⟨e, j, h', he, htail, rfl⟩, h⟩
    · exact h.elim
  · rintro ⟨f, s, hf, h⟩
    obtain ⟨e, j, h', he, htail, rfl⟩ := Grammar.postfixExpr_openParenthesis_iff.1 hf
    refine .inl ⟨e, _, he, rfl, h', s, ?_, h⟩
    rw [Pending.head, hbare he.span]
    exact htail

/-- An operator in front of its operand waits for it. -/
theorem takes_prefix_iff {op : PrefixOp} (hop : PrefixOp.ofKind? k = some op)
    (hclose : k ≠ .symbol .closeParenthesis) (waiting : List Waiting) (c : Context) :
    c.Takes ds waiting (k :: i) ↔ neededLevel waiting c ≤ PrefixOp.level ∧
      c.Takes ds (.prefixOp op .first :: waiting) i := by
  constructor
  · rintro (⟨e, r, hclimb, h⟩ | h)
    · obtain ⟨hlevel, f, j, hf, t⟩ := (Grammar.climb_prefix_iff hop).1 hclimb
      exact ⟨hlevel, .inl ⟨f, j, hf, e, r, t, h⟩⟩
    · exact absurd h (not_takesEmpty hclose waiting c)
  · rintro ⟨hlevel, ⟨f, j, hf, e, r, t, h⟩ | h⟩
    · exact .inl ⟨e, r, (Grammar.climb_prefix_iff hop).2 ⟨hlevel, f, j, hf, t⟩, h⟩
    · cases c with
      | arguments call outerWaiting outer => simp [TakesEmpty] at h
      | _ => exact h.elim

/-- Only brackets that hold nothing yet may be closed where an operand is expected. -/
theorem takesEmpty_iff (waiting : List Waiting) (c : Context) :
    c.TakesEmpty ds waiting (k :: i) ↔ AfterStep ds (closeEmpty ⟨k, .first⟩ waiting c) i := by
  cases c with
  | slot s => simp [TakesEmpty, closeEmpty]
  | group opener outerWaiting outer => simp [TakesEmpty, closeEmpty]
  | arguments call outerWaiting outer =>
      simp only [TakesEmpty, closeEmpty, next_cons, List.isEmpty_iff]
      split
      case isTrue h =>
        rw [afterStep_some]
        exact ⟨fun h' => h'.2.2, fun h' => ⟨⟨h.1, h.2.1, h.2.2.1⟩, h.2.2.2, h'⟩⟩
      case isFalse h =>
        simp only [not_afterStep_none, iff_false]
        rintro ⟨⟨hwaiting, harguments, hround⟩, hk, -⟩
        exact h ⟨hwaiting, harguments, hround, hk⟩

/-- The tokens that are demanded where an operand begins are those that are read there. -/
theorem takes_iff (waiting : List Waiting) (c : Context) :
    c.Takes ds waiting (k :: i) ↔ AfterStep ds (stepOperand waiting c ⟨k, .first⟩) i := by
  unfold stepOperand
  split
  case h_1 name hk =>
    obtain rfl : k = .identifier name := hk
    rw [takes_operand_iff rfl (by simp), afterStep_some]
    simp only [Grammar.postfixExpr_identifier_iff]
    constructor
    · rintro ⟨_, r, ⟨h, htail, rfl⟩, h'⟩
      exact ⟨h, r, htail, h'⟩
    · rintro ⟨h, r, htail, h'⟩
      exact ⟨_, r, ⟨h, htail, rfl⟩, h'⟩
  case h_2 v hk =>
    obtain rfl : k = .literal v := hk
    rw [takes_operand_iff rfl (by simp), afterStep_some]
    simp only [Grammar.postfixExpr_literal_iff]
    constructor
    · rintro ⟨_, r, ⟨h, htail, rfl⟩, h'⟩
      exact ⟨h, r, htail, h'⟩
    · rintro ⟨h, r, htail, h'⟩
      exact ⟨_, r, ⟨h, htail, rfl⟩, h'⟩
  case h_3 hk =>
    obtain rfl : k = .symbol .openParenthesis := hk
    rw [takes_operand_iff rfl (by simp), afterStep_some]
    exact (takes_group_iff waiting c).symm
  case h_4 hname hliteral hopen =>
    -- Only an operator in front of its operand, or the end of empty brackets, is left.
    change ∀ n, k = .identifier n → False at hname
    change ∀ v, k = .literal v → False at hliteral
    change k = .symbol .openParenthesis → False at hopen
    split
    case h_1 op hop =>
      have hop : PrefixOp.ofKind? k = some op := hop
      have hclose : k ≠ .symbol .closeParenthesis := by
        rintro rfl
        simp [PrefixOp.ofKind?] at hop
      rw [takes_prefix_iff hop hclose]
      split
      case isTrue hlevel =>
        rw [afterStep_some]
        exact ⟨And.right, fun h => ⟨hlevel, h⟩⟩
      case isFalse hlevel => simp [hlevel]
    case h_2 hop =>
      have hop : PrefixOp.ofKind? k = none := hop
      rw [← takesEmpty_iff, Takes]
      refine or_iff_right ?_
      rintro ⟨e, r, hclimb, -⟩
      rcases hclimb.begins with hk | hk
      · unfold Grammar.BeginsOperand at hk
        split at hk
        · exact hname _ rfl
        · exact hliteral _ rfl
        · exact hopen rfl
        · exact hk
      · simp [hop] at hk

end Context

/-! ## What follows expressions -/

theorem Slot.takesValue_iff (s : Slot) (e : Expression) :
    s.TakesValue ds e (k :: i) ↔ AfterStep ds (s.deliver e ⟨k, .first⟩) i := by
  cases s with
  | argument name span header =>
      simp only [TakesValue, deliver, next_cons]
      split <;> simp_all [State.Takes]
  | _ =>
      simp only [TakesValue, deliver, next_cons]
      split <;> simp_all [State.Takes]

namespace OpenCall

theorem addAll_nil (c : OpenCall) : c.addAll [] = c := by
  simp [addAll]

theorem addAll_cons (e : Expression) (es : List Expression) (c : OpenCall) :
    c.addAll (e :: es) = (c.add e).addAll es := by
  simp [addAll, add]

end OpenCall

namespace Context

/-- Where an argument is to be read, a list of arguments is demanded, or none at all. -/
theorem takes_arguments_iff (call : OpenCall) (waiting : List Waiting) (outer : Context) :
    (arguments call waiting outer).Takes ds [] i ↔
      call.TakesArguments (Pending.Takes outer (outer.TakesValue ds) waiting) i ∨
        (call.arguments = [] ∧ call.brackets = .round) ∧
          Next (.symbol .closeParenthesis) (Pending.Takes outer (outer.TakesValue ds) waiting
            (.whole (call.close .first))) i := by
  rw [takes_nil_iff rfl]
  refine or_congr ⟨?_, ?_⟩ (and_congr_left fun _ => and_iff_right rfl)
  · rintro ⟨e, r, he, h | h⟩
    · obtain ⟨j, rfl⟩ := exists_of_next h
      exact ⟨[e], j, .one he, h.2⟩
    · obtain ⟨j, rfl⟩ := exists_of_next h
      obtain ⟨es, s, hes, h⟩ := h.2
      exact ⟨e :: es, s, .more he hes, by rwa [OpenCall.addAll_cons]⟩
  · rintro ⟨es, r, hes, h⟩
    -- Behind the last argument the brackets are closed, behind another one there is a comma.
    cases hes with
    | one he => exact ⟨_, _, he, .inl ⟨rfl, h⟩⟩
    | more he hes =>
        rw [OpenCall.addAll_cons] at h
        exact ⟨_, _, he, .inr ⟨rfl, _, r, hes, h⟩⟩

theorem takesValue_iff (c : Context) (e : Expression) :
    c.TakesValue ds e (k :: i) ↔ AfterStep ds (c.deliver e ⟨k, .first⟩) i := by
  cases c with
  | slot s => exact s.takesValue_iff e
  | group opener waiting outer =>
      simp only [TakesValue, deliver, next_cons]
      split <;> simp_all [State.Takes]
  | arguments call waiting outer =>
      have hcloser : Symbol.comma ≠ call.brackets.closer := by
        cases call.brackets <;> decide
      -- Behind a comma the brackets cannot be closed as if they held nothing.
      have hadd : (call.add e).arguments ≠ [] := by simp [OpenCall.add]
      simp only [TakesValue, deliver, next_cons]
      split
      case isTrue hk =>
        subst hk
        rw [afterStep_some, State.Takes, takes_arguments_iff]
        simp [hcloser, hadd]
      case isFalse hcomma =>
        split
        case isTrue hk =>
          rw [afterStep_some]
          simp [hk, State.Takes, hcloser.symm]
        case isFalse hk => simp [hk, hcomma]

end Context

/-! ## What follows operands -/

namespace Pending

variable {p : Pending}

/-- The tree of an operand without places is its value. -/
theorem tree_head (hp : p.bare = p) : p.head.tree = p.value := by
  cases p with
  | name n s =>
      obtain ⟨-, rfl⟩ := Pending.name.inj hp
      rfl
  | member receiver n s =>
      obtain ⟨hreceiver, -, rfl⟩ := Pending.member.inj hp
      rw [value, ← hreceiver, Expression.span_bare, Span.first_add_first]
      rfl
  | whole e => rfl

theorem call_head (hp : p.bare = p) (es : List Expression) :
    p.head.call es = (p.openCall.addAll es).close .first := by
  cases p with
  | name n s =>
      obtain ⟨-, rfl⟩ := Pending.name.inj hp
      simp [head, Head.call, openCall, OpenCall.addAll, OpenCall.close, Expression.span,
        Expression.selfName]
  | member receiver n s =>
      obtain ⟨hreceiver, -, rfl⟩ := Pending.member.inj hp
      rw [← hreceiver]
      simp [head, Head.call, openCall, OpenCall.addAll, OpenCall.close]
  | whole e =>
      rw [← Pending.whole.inj hp]
      simp [head, Head.call, openCall, OpenCall.addAll, OpenCall.close]

theorem index_head (hp : p.bare = p) (es : List Expression) :
    p.head.index es = (p.openIndex.addAll es).close .first := by
  have hspan : p.value.span = .first := by
    rw [← hp, ← bare_value, Expression.span_bare]
  rw [Head.index, tree_head hp]
  simp [openIndex, OpenCall.addAll, OpenCall.close, hspan]

variable {c : Context} {waiting : List Waiting}

/-- Behind an operand a token that goes on with none is demanded of the expression. -/
theorem takes_end_iff (hp : p.bare = p) (hround : k ≠ .symbol .openParenthesis)
    (hsquare : k ≠ .symbol .openBracket) (hperiod : k ≠ .symbol .period) :
    p.Takes c (c.TakesValue ds) waiting (k :: i) ↔
      TakesTail c (c.TakesValue ds) waiting 9 p.value (k :: i) := by
  constructor
  · rintro ⟨h, r, htail, h'⟩
    cases htail with
    | done => exact tree_head hp ▸ h'
    | member _ => exact absurd rfl hperiod
    | memberCall _ _ => exact absurd rfl hperiod
    | call hargs _ => cases hargs <;> exact absurd rfl hround
    | index _ _ => exact absurd rfl hsquare
  · intro h'
    exact ⟨p.head, _, .done, (tree_head hp).symm ▸ h'⟩

theorem not_takesTail_of_not_ends (hop : InfixOp.ofKind? k = none) (hk : ¬ EndsExpr k)
    {follow : Nat} {e : Expression} :
    ¬ TakesTail c (c.TakesValue ds) waiting follow e (k :: i) := by
  rw [takesTail_iff_of_none hop]
  exact Context.not_takesValue hk

theorem brackets_openCall (p : Pending) : p.openCall.brackets = .round := by
  cases p <;> rfl

theorem arguments_openCall (p : Pending) : p.openCall.arguments = [] := by
  cases p <;> rfl

/-- Parentheses behind an operand are those of a call. -/
theorem takes_round_iff (hp : p.bare = p) :
    p.Takes c (c.TakesValue ds) waiting (.symbol .openParenthesis :: i) ↔
      (Context.arguments p.openCall waiting c).Takes ds [] i := by
  rw [Context.takes_arguments_iff, OpenCall.TakesArguments, brackets_openCall]
  constructor
  · rintro ⟨h, r, htail, h'⟩
    cases htail with
    | done => exact absurd h' (not_takesTail_of_not_ends rfl (by simp [EndsExpr]))
    | call hargs t =>
        rw [call_head hp] at t
        cases hargs with
        | empty =>
            rw [OpenCall.addAll_nil] at t
            exact .inr ⟨⟨arguments_openCall p, rfl⟩, rfl, h, r, t, h'⟩
        | list hes => exact .inl ⟨_, _, hes, h, r, t, h'⟩
  · rintro (⟨es, j, hes, h, r, t, h'⟩ | ⟨-, hnext⟩)
    · rw [head, ← call_head hp] at t
      exact ⟨h, r, .call (.list hes) t, h'⟩
    · obtain ⟨j, rfl⟩ := exists_of_next hnext
      obtain ⟨h, r, t, h'⟩ := hnext.2
      rw [head, ← OpenCall.addAll_nil p.openCall, ← call_head hp] at t
      exact ⟨h, r, .call .empty t, h'⟩

/-- Square brackets behind an operand hold at least one argument. -/
theorem takes_square_iff (hp : p.bare = p) :
    p.Takes c (c.TakesValue ds) waiting (.symbol .openBracket :: i) ↔
      (Context.arguments p.openIndex waiting c).Takes ds [] i := by
  rw [Context.takes_arguments_iff, OpenCall.TakesArguments]
  constructor
  · rintro ⟨h, r, htail, h'⟩
    cases htail with
    | done => exact absurd h' (not_takesTail_of_not_ends rfl (by simp [EndsExpr]))
    | call hargs t => cases hargs
    | index hes t =>
        rw [index_head hp] at t
        exact .inl ⟨_, _, hes, h, r, t, h'⟩
  · rintro (⟨es, j, hes, h, r, t, h'⟩ | ⟨⟨-, hround⟩, -⟩)
    · rw [head, ← index_head hp] at t
      exact ⟨h, r, .index hes t, h'⟩
    · simp [openIndex] at hround

/-- A period behind an operand needs the name of a member. Whether what follows is the call of the
member or a call of its value, the tree is the same. -/
theorem takes_period_iff (hp : p.bare = p) :
    p.Takes c (c.TakesValue ds) waiting (.symbol .period :: i) ↔
      NextName (fun n => Pending.Takes c (c.TakesValue ds) waiting (.member p.value n .first)) i := by
  constructor
  · rintro ⟨h, r, htail, h'⟩
    cases htail with
    | done => exact absurd h' (not_takesTail_of_not_ends rfl (by simp [EndsExpr]))
    | member t =>
        rw [tree_head hp] at t
        exact ⟨h, r, t, h'⟩
    | memberCall hargs t =>
        rw [tree_head hp] at t
        exact ⟨h, r, .call hargs t, h'⟩
    | call hargs t => cases hargs
  · intro hnext
    cases i with
    | nil => exact hnext.elim
    | cons k j =>
        obtain ⟨n, rfl, h, r, t, h'⟩ := exists_of_nextName hnext
        rw [head, ← tree_head hp] at t
        exact ⟨h, r, .member t, h'⟩

/-- An operator behind an operand is read where it is demanded. -/
theorem takesTail_stepInfix_iff {op : InfixOp} (hop : InfixOp.ofKind? k = some op)
    (hdescends : Descends c waiting) (e : Expression) :
    TakesTail c (c.TakesValue ds) waiting 9 e (k :: i) ↔
      AfterStep ds (stepInfix op e waiting c) i := by
  rw [takesTail_op_iff hop hdescends]
  unfold stepInfix
  simp only
  split
  case isTrue hlevel =>
    rw [afterStep_some, State.Takes, Context.Takes, or_iff_left]
    · exact and_iff_right hlevel
    · cases c with
      | arguments call outerWaiting outer =>
          rintro ⟨⟨hwaiting, -⟩, -⟩
          simp at hwaiting
      | _ => exact id
  case isFalse hlevel => simp [hlevel]

/-- The tokens that are demanded behind an operand are those that are read there. -/
theorem takes_iff (hp : p.bare = p) (hdescends : Descends c waiting) :
    p.Takes c (c.TakesValue ds) waiting (k :: i) ↔
      AfterStep ds (stepPending p waiting c ⟨k, .first⟩) i := by
  unfold stepPending
  split
  case h_1 hk =>
    obtain rfl : k = .symbol .openParenthesis := hk
    rw [takes_round_iff hp, afterStep_some, State.Takes]
  case h_2 hk =>
    obtain rfl : k = .symbol .openBracket := hk
    rw [takes_square_iff hp, afterStep_some, State.Takes]
  case h_3 hk =>
    obtain rfl : k = .symbol .period := hk
    rw [takes_period_iff hp, afterStep_some, State.Takes]
  case h_4 hround hsquare hperiod =>
    rw [takes_end_iff hp hround hsquare hperiod]
    -- Either an operator goes on with the expression, or the expression is handed on.
    split
    case h_1 op hop => exact takesTail_stepInfix_iff hop hdescends p.value
    case h_2 hop => rw [takesTail_iff_of_none hop, Context.takesValue_iff]

end Pending

end Parser

end Bucket
