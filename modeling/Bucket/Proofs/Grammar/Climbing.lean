/-
# Climbing through the levels

The rules of the grammar for expressions lie on levels, one rule below the other. A parser does not
go through all of them for each operand. It reads an operand and then goes on as long as operators
of a high enough level follow. Here this way to derive expressions is a relation of its own, and both
ways are shown to derive the same (`climb_one_iff`, `climb_ten_iff`).
-/
import Bucket.Proofs.Grammar.Rules
import Bucket.Proofs.Parsing.Erasure

namespace Bucket

/-! ## Levels of operators -/

namespace Parser.InfixOp

/-- The token of an operator. -/
def kind : InfixOp → Token.Kind
  | assign => .symbol .equals
  | binary .or => .keyword .orKw
  | binary .and => .keyword .andKw
  | binary .eq => .symbol .doubleEquals
  | binary .ne => .symbol .bangEquals
  | binary .gt => .symbol .greater
  | binary .ge => .symbol .greaterOrEqual
  | binary .lt => .symbol .lesser
  | binary .le => .symbol .lesserOrEqual
  | binary .add => .symbol .plus
  | binary .sub => .symbol .minus
  | binary .mul => .symbol .asterisk
  | binary .div => .symbol .slash
  | binary .mod => .symbol .percent
  | binary .pow => .symbol .caret

/-- An operator is read from its own token only. -/
theorem eq_kind_of_ofKind? {k : Token.Kind} {op : InfixOp} (h : ofKind? k = some op) :
    k = op.kind := by
  unfold ofKind? at h
  split at h <;> simp at h <;> subst h <;> rfl

theorem ofKind?_kind (op : InfixOp) : ofKind? op.kind = some op := by
  cases op with
  | assign => rfl
  | binary op => cases op <;> rfl

/-- The three levels of an operator: its own, the one of its right operand, and the highest one of
an operator that may follow. -/
theorem levels (op : InfixOp) :
    (op.level = 1 ∧ op.operandLevel = 1 ∧ op.followLevel = 0) ∨
      (op.level = 2 ∧ op.operandLevel = 2 ∧ op.followLevel = 1) ∨
      (op.level = 3 ∧ op.operandLevel = 3 ∧ op.followLevel = 2) ∨
      (op.level = 4 ∧ op.operandLevel = 5 ∧ op.followLevel = 3) ∨
      (op.level = 5 ∧ op.operandLevel = 6 ∧ op.followLevel = 4) ∨
      (op.level = 6 ∧ op.operandLevel = 7 ∧ op.followLevel = 6) ∨
      (op.level = 7 ∧ op.operandLevel = 8 ∧ op.followLevel = 7) ∨
      (op.level = 9 ∧ op.operandLevel = 8 ∧ op.followLevel = 8) := by
  cases op with
  | assign => decide
  | binary op => cases op <;> decide

theorem level_le_nine (op : InfixOp) : op.level ≤ 9 := by
  have hop := op.levels
  omega

/-- An operator may follow those on higher levels, and those on its own level where they group to
the left. -/
theorem level_le_followLevel {op op' : InfixOp} {n : Nat}
    (hn : op.level < n ∨ op.level = n ∧ op.followLevel = n) (h : n ≤ op'.level) :
    op.level ≤ op'.followLevel := by
  have hop := op.levels
  have hop' := op'.levels
  omega

/-- An operator between bare operands makes a bare tree. -/
theorem apply_assign {e f : Expression} (he : e.span = .first) (hf : f.span = .first) :
    assign.apply e f = .assignment e f .first := by
  rw [apply, he, hf, Span.first_add_first]

theorem apply_binary (op : BinaryOp) {e f : Expression} (he : e.span = .first)
    (hf : f.span = .first) :
    (binary op).apply e f = .call e op.method [f] .first := by
  rw [apply, he, hf, Span.first_add_first]

end Parser.InfixOp

theorem Parser.PrefixOp.apply_first (op : PrefixOp) {e : Expression} (he : e.span = .first) :
    op.apply .first e = .call e op.method [] .first := by
  rw [apply, he, Span.first_add_first]

namespace Grammar

open Bucket.Parser

/-! ## Methods of operators -/

/-- The method of an operator on a level, if the token is one. -/
def methodAt? (level : Nat) (k : Token.Kind) : Option String :=
  match InfixOp.ofKind? k with
  | some (.binary op) => if (InfixOp.binary op).level = level then some op.method else none
  | _ => none

theorem exists_of_methodAt? {level : Nat} {k : Token.Kind} {name : String}
    (h : methodAt? level k = some name) :
    ∃ op : BinaryOp, InfixOp.ofKind? k = some (.binary op) ∧ (InfixOp.binary op).level = level ∧
      op.method = name := by
  unfold methodAt? at h
  split at h
  case h_1 op hop =>
    split at h
    case isTrue hlevel => exact ⟨op, hop, hlevel, Option.some.inj h⟩
    case isFalse => simp at h
  case h_2 => simp at h

/-- The methods of the rules are those of the operators on their levels. -/
theorem methods_eq (k : Token.Kind) :
    equalityMethod? k = methodAt? 4 k ∧ comparisonMethod? k = methodAt? 5 k ∧
      additiveMethod? k = methodAt? 6 k ∧ multiplicativeMethod? k = methodAt? 7 k := by
  cases k with
  | symbol s => cases s <;> exact ⟨rfl, rfl, rfl, rfl⟩
  | keyword w => cases w <;> exact ⟨rfl, rfl, rfl, rfl⟩
  | _ => exact ⟨rfl, rfl, rfl, rfl⟩

theorem unaryMethod?_eq (k : Token.Kind) :
    unaryMethod? k = (PrefixOp.ofKind? k).map PrefixOp.method := by
  cases k with
  | symbol s => cases s <;> rfl
  | keyword w => cases w <;> rfl
  | _ => rfl

theorem exists_of_unaryMethod? {k : Token.Kind} {name : String} (h : unaryMethod? k = some name) :
    ∃ op : PrefixOp, PrefixOp.ofKind? k = some op ∧ op.method = name := by
  rw [unaryMethod?_eq] at h
  exact Option.map_eq_some_iff.1 h

/-! ## Derived trees have no places -/

mutual

/-- A derived expression has no place. The derivations are gone through rule by rule, since brackets
hold any expression again. -/
theorem Expr.span {i r : Kinds} {e : Expression} : Expr i r e → e.span = .first
  | .value h => h.span
  | .assign _ _ => rfl

theorem OrExpr.span {i r : Kinds} {e : Expression} : OrExpr i r e → e.span = .first
  | .value h => h.span
  | .or _ _ => rfl

theorem AndExpr.span {i r : Kinds} {e : Expression} : AndExpr i r e → e.span = .first
  | .value h => h.span
  | .and _ _ => rfl

theorem EqExpr.span {i r : Kinds} {e : Expression} : EqExpr i r e → e.span = .first
  | .value h => h.span
  | .eq _ _ _ => rfl

theorem CmpExpr.span {i r : Kinds} {e : Expression} : CmpExpr i r e → e.span = .first
  | .value h => h.span
  | .cmp _ _ _ => rfl

theorem AddExpr.span {i r : Kinds} {e : Expression} : AddExpr i r e → e.span = .first
  | .mk h t => t.span h.span

theorem AddTail.span {i r : Kinds} {e f : Expression} :
    AddTail e i r f → e.span = .first → f.span = .first
  | .done, he => he
  | .add _ _ t, _ => t.span rfl

theorem MulExpr.span {i r : Kinds} {e : Expression} : MulExpr i r e → e.span = .first
  | .mk h t => t.span h.span

theorem MulTail.span {i r : Kinds} {e f : Expression} :
    MulTail e i r f → e.span = .first → f.span = .first
  | .done, he => he
  | .mul _ _ t, _ => t.span rfl

theorem UnaryExpr.span {i r : Kinds} {e : Expression} : UnaryExpr i r e → e.span = .first
  | .value h => h.span
  | .unary _ _ => rfl

theorem PowExpr.span {i r : Kinds} {e : Expression} : PowExpr i r e → e.span = .first
  | .value h => h.span
  | .pow _ _ => rfl

theorem PostfixExpr.span {i r : Kinds} {e : Expression} : PostfixExpr i r e → e.span = .first
  | .mk h t => t.span h.span

theorem PostfixTail.span {i r : Kinds} {h h' : Head} :
    PostfixTail h i r h' → h.tree.span = .first → h'.tree.span = .first
  | .done, hh => hh
  | .member t, _ => t.span rfl
  | .memberCall _ t, _ => t.span rfl
  | .call (h := h) _ t, _ => t.span (by cases h <;> rfl)
  | .index _ t, _ => t.span rfl

theorem PrimaryExpr.span {i r : Kinds} {h : Head} : PrimaryExpr i r h → h.tree.span = .first
  | .name => rfl
  | .nameCall _ => rfl
  | .literal => rfl
  | .group h => h.span

end

/-! ## Climbing -/

mutual

/-- An expression in which every operator outside brackets and operands has at least the level
`n`. -/
inductive Climb : Nat → Kinds → Kinds → Expression → Prop where
  | prefixOp {n : Nat} {i j r : Kinds} {e f : Expression} {k : Token.Kind} {op : PrefixOp} :
      PrefixOp.ofKind? k = some op → n ≤ PrefixOp.level → Climb PrefixOp.level i j e →
      ClimbTail n PrefixOp.level (op.apply .first e) j r f → Climb n (k :: i) r f
  | operand {n : Nat} {i j r : Kinds} {e f : Expression} :
      PostfixExpr i j e → ClimbTail n 9 e j r f → Climb n i r f

/-- Operators of at least the level `n` with their right operands, behind an expression that can be
the left operand of operators up to the level `follow`. -/
inductive ClimbTail : Nat → Nat → Expression → Kinds → Kinds → Expression → Prop where
  | done {n follow : Nat} {r : Kinds} {e : Expression} : ClimbTail n follow e r r e
  | op {n follow : Nat} {i j r : Kinds} {e f g : Expression} {k : Token.Kind} {op : InfixOp} :
      InfixOp.ofKind? k = some op → n ≤ op.level → op.level ≤ follow →
      Climb op.operandLevel i j f → ClimbTail n op.followLevel (op.apply e f) j r g →
      ClimbTail n follow e (k :: i) r g

end

variable {n m follow : Nat} {i j r : Kinds} {e f g : Expression} {k : Token.Kind} {op : InfixOp}

/-- Fewer operators are left out below a lower level. -/
theorem ClimbTail.lower (hm : m ≤ n) :
    ∀ {follow : Nat} {e : Expression} {i : Kinds}, ClimbTail n follow e i r f →
      ClimbTail m follow e i r f
  | _, _, _, .done => .done
  | _, _, _, .op hop hn hfollow h t => .op hop (Nat.le_trans hm hn) hfollow h (t.lower hm)

theorem Climb.lower (hm : m ≤ n) (h : Climb n i r f) : Climb m i r f := by
  cases h with
  | prefixOp hop hn h t => exact .prefixOp hop (Nat.le_trans hm hn) h (t.lower hm)
  | operand h t => exact .operand h (t.lower hm)

/-- An operator is added at the end when every operator before it lets it follow. -/
theorem ClimbTail.snoc (hop : InfixOp.ofKind? k = some op) (hn : op.level ≤ n)
    (hbefore : ∀ op' : InfixOp, n ≤ op'.level → op.level ≤ op'.followLevel)
    (hright : Climb op.operandLevel j r g) :
    ∀ {follow : Nat} {e : Expression} {i l : Kinds}, op.level ≤ follow →
      ClimbTail n follow e i l f → l = k :: j → ClimbTail op.level follow e i r (op.apply f g)
  | _, _, _, _, hfollow, .done, hl => hl ▸ .op hop (Nat.le_refl _) hfollow hright .done
  -- What stands before the new operator is now the last one that was there.
  | _, _, _, _, _, .op hop' hn' hfollow' h t, hl =>
      .op hop' (Nat.le_trans hn hn') hfollow' h (t.snoc hop hn hbefore hright (hbefore _ hn') hl)

theorem Climb.snoc (hop : InfixOp.ofKind? k = some op)
    (hn : op.level < n ∨ op.level = n ∧ op.followLevel = n) (h : Climb n i (k :: j) e)
    (hright : Climb op.operandLevel j r f) : Climb op.level i r (op.apply e f) := by
  have hle : op.level ≤ n := by omega
  have hbefore : ∀ op' : InfixOp, n ≤ op'.level → op.level ≤ op'.followLevel :=
    fun op' hop' => InfixOp.level_le_followLevel hn hop'
  cases h with
  | prefixOp hop' hn' h t =>
      exact .prefixOp hop' (Nat.le_trans hle hn') h
        (t.snoc hop hle hbefore hright (Nat.le_trans hle hn') rfl)
  | operand h t => exact .operand h (t.snoc hop hle hbefore hright op.level_le_nine rfl)

/-! ## From the rules to climbing -/

/-- An operator that calls a method is added at the end. -/
theorem Climb.binary {l q : Nat} {name : String} (hname : methodAt? l k = some name)
    (hn : l < n ∨ l = n ∧ (l = 6 ∨ l = 7))
    (hq : (l, q) ∈ [(2, 2), (3, 3), (4, 5), (5, 6), (6, 7), (7, 8), (9, 8)])
    (h : Climb n i (k :: j) e) (he : e.span = .first) (hright : Climb q j r f)
    (hf : f.span = .first) : Climb l i r (.call e name [f] .first) := by
  obtain ⟨op, hop, rfl, rfl⟩ := exists_of_methodAt? hname
  have hlevels := (InfixOp.binary op).levels
  simp only [List.mem_cons, Prod.mk.injEq, List.not_mem_nil, or_false] at hq
  -- The level of an operator determines that of its right operand.
  have hoperand : q = (InfixOp.binary op).operandLevel := by omega
  rw [← InfixOp.apply_binary op he hf]
  exact h.snoc hop (by omega) (hoperand ▸ hright)

mutual

/-- What the rules derive on a level is derived by climbing from it. An operator on each level is
added behind what the level above derives. -/
theorem Expr.climb {i r : Kinds} {e : Expression} : Expr i r e → Climb 1 i r e
  | .value h => h.climb.lower (by decide)
  | .assign h h' => by
      rw [← InfixOp.apply_assign h.span h'.span]
      exact h.climb.snoc (InfixOp.ofKind?_kind .assign) (.inl (by decide)) h'.climb

theorem OrExpr.climb {i r : Kinds} {e : Expression} : OrExpr i r e → Climb 2 i r e
  | .value h => h.climb.lower (by decide)
  | .or h h' => h.climb.binary rfl (.inl (by decide)) (by decide) h.span h'.climb h'.span

theorem AndExpr.climb {i r : Kinds} {e : Expression} : AndExpr i r e → Climb 3 i r e
  | .value h => h.climb.lower (by decide)
  | .and h h' => h.climb.binary rfl (.inl (by decide)) (by decide) h.span h'.climb h'.span

theorem EqExpr.climb {i r : Kinds} {e : Expression} : EqExpr i r e → Climb 4 i r e
  | .value h => h.climb.lower (by decide)
  | .eq h hm h' =>
      h.climb.binary ((methods_eq _).1 ▸ hm) (.inl (by decide)) (by decide) h.span h'.climb
        h'.span

theorem CmpExpr.climb {i r : Kinds} {e : Expression} : CmpExpr i r e → Climb 5 i r e
  | .value h => h.climb.lower (by decide)
  | .cmp h hm h' =>
      h.climb.binary ((methods_eq _).2.1 ▸ hm) (.inl (by decide)) (by decide) h.span h'.climb
        h'.span

theorem AddExpr.climb {i r : Kinds} {e : Expression} : AddExpr i r e → Climb 6 i r e
  | .mk h t => t.climb (h.climb.lower (by decide)) h.span

theorem AddTail.climb {i j r : Kinds} {e f : Expression} :
    AddTail e j r f → Climb 6 i j e → e.span = .first → Climb 6 i r f
  | .done, hleft, _ => hleft
  | .add hm h t, hleft, he =>
      t.climb (hleft.binary ((methods_eq _).2.2.1 ▸ hm) (.inr (by decide)) (by decide) he h.climb
        h.span) rfl

theorem MulExpr.climb {i r : Kinds} {e : Expression} : MulExpr i r e → Climb 7 i r e
  | .mk h t => t.climb (h.climb.lower (by decide)) h.span

theorem MulTail.climb {i j r : Kinds} {e f : Expression} :
    MulTail e j r f → Climb 7 i j e → e.span = .first → Climb 7 i r f
  | .done, hleft, _ => hleft
  | .mul hm h t, hleft, he =>
      t.climb (hleft.binary ((methods_eq _).2.2.2 ▸ hm) (.inr (by decide)) (by decide) he
        h.climb h.span) rfl

theorem UnaryExpr.climb {i r : Kinds} {e : Expression} : UnaryExpr i r e → Climb 8 i r e
  | .value h => h.climb.lower (by decide)
  -- The operator in front stays outermost, so nothing follows its application.
  | .unary hm h => by
      obtain ⟨op, hop, rfl⟩ := exists_of_unaryMethod? hm
      rw [← PrefixOp.apply_first op h.span]
      exact .prefixOp hop (Nat.le_refl 8) h.climb .done

theorem PowExpr.climb {i r : Kinds} {e : Expression} : PowExpr i r e → Climb 9 i r e
  | .value h => .operand h .done
  -- In front of `^` there is an operand without any operator, so all levels are open to it.
  | .pow h h' =>
      (Climb.operand (n := 10) h .done).binary rfl (.inl (by decide)) (by decide) h.span h'.climb
        h'.span

end

/-! ## From climbing to the rules -/

/-- The rule on a level. -/
def Level : Nat → Kinds → Kinds → Expression → Prop
  | 0 | 1 => Expr
  | 2 => OrExpr
  | 3 => AndExpr
  | 4 => EqExpr
  | 5 => CmpExpr
  | 6 => AddExpr
  | 7 => MulExpr
  | 8 => UnaryExpr
  | 9 => PowExpr
  | _ => PostfixExpr

theorem Level.span (h : Level n i r e) : e.span = .first := by
  unfold Level at h
  split at h <;> exact h.span

/-- Each level holds the one above it. -/
theorem Level.of_succ (h : Level (n + 1) i r e) : Level n i r e := by
  match n, h with
  | 0, h => exact h
  | 1, h => exact .value h
  | 2, h => exact .value h
  | 3, h => exact .value h
  | 4, h => exact .value h
  | 5, h => exact .value h
  | 6, h => exact .mk h .done
  | 7, h => exact .mk h .done
  | 8, h => exact .value h
  | 9, h => exact .value h
  | _ + 10, h => exact h

theorem Level.lower (hm : m ≤ n) (h : Level n i r e) : Level m i r e := by
  induction hm with
  | refl => exact h
  | step _ ih => exact ih h.of_succ

theorem AddTail.snoc {name : String} (hname : additiveMethod? k = some name)
    (hright : MulExpr j r g) :
    ∀ {e f : Expression} {i l : Kinds}, AddTail e i l f → l = k :: j →
      AddTail e i r (.call f name [g] .first)
  | _, _, _, _, .done, hl => hl ▸ .add hname hright .done
  | _, _, _, _, .add hm h t, hl => .add hm h (t.snoc hname hright hl)

theorem MulTail.snoc {name : String} (hname : multiplicativeMethod? k = some name)
    (hright : UnaryExpr j r g) :
    ∀ {e f : Expression} {i l : Kinds}, MulTail e i l f → l = k :: j →
      MulTail e i r (.call f name [g] .first)
  | _, _, _, _, .done, hl => hl ▸ .mul hname hright .done
  | _, _, _, _, .mul hm h t, hl => .mul hm h (t.snoc hname hright hl)

/-- The level of an expression that operators up to the level `follow` may follow. Sums and products
may be followed by operators of their own level. No operator between operands has level 8, so that
is also the level of what at most products may follow. -/
def levelOf (follow : Nat) : Nat := if follow ∈ [6, 7, 8] then follow else follow + 1

/-- An operator between operands that are on their levels makes an expression on its level. -/
theorem Level.apply (hop : InfixOp.ofKind? k = some op) (hfollow : op.level ≤ follow)
    (h : Level (levelOf follow) i (k :: j) e) (hright : Level op.operandLevel j r f) :
    Level (levelOf op.followLevel) i r (op.apply e f) := by
  obtain rfl := InfixOp.eq_kind_of_ofKind? hop
  -- The left operand is on every level that the rule of the operator may ask for.
  have hlower : ∀ m, m ≤ levelOf op.level → Level m i (op.kind :: j) e := by
    intro m hm
    refine h.lower (Nat.le_trans hm ?_)
    unfold levelOf
    simp only [List.mem_cons, List.not_mem_nil, or_false]
    split <;> split <;> omega
  cases op with
  | assign =>
      rw [InfixOp.apply_assign h.span hright.span]
      exact Expr.assign (hlower 2 (by decide)) hright
  | binary op =>
      rw [InfixOp.apply_binary op h.span hright.span]
      cases op with
      | or => exact OrExpr.or (hlower 3 (by decide)) hright
      | and => exact AndExpr.and (hlower 4 (by decide)) hright
      | eq | ne => exact EqExpr.eq (hlower 5 (by decide)) rfl hright
      | gt | ge | lt | le => exact CmpExpr.cmp (hlower 6 (by decide)) rfl hright
      | add | sub =>
          obtain ⟨h, t⟩ := hlower 6 (by decide)
          exact .mk h (t.snoc rfl hright rfl)
      | mul | div | mod =>
          obtain ⟨h, t⟩ := hlower 7 (by decide)
          exact .mk h (t.snoc rfl hright rfl)
      | pow => exact UnaryExpr.value (.pow (hlower 10 (by decide)) hright)

mutual

/-- What is derived by climbing from a level is derived by its rule. -/
theorem Climb.level {n : Nat} {i r : Kinds} {e : Expression} (hnine : n ≠ 9) (hten : n ≤ 10) :
    Climb n i r e → Level n i r e
  | .prefixOp hop hn h t => by
      have hoperand := h.level (by decide) (by decide)
      refine t.level hnine (show n ≤ levelOf 8 from hn) (show UnaryExpr _ _ _ from ?_)
      rw [PrefixOp.apply_first _ hoperand.span]
      exact .unary (by rw [unaryMethod?_eq, hop, Option.map_some]) hoperand
  | .operand h t => t.level hnine (show n ≤ levelOf 9 from hten) h

theorem ClimbTail.level {n follow : Nat} {i j r : Kinds} {e f : Expression} (hnine : n ≠ 9)
    (hn : n ≤ levelOf follow) (hleft : Level (levelOf follow) i j e) :
    ClimbTail n follow e j r f → Level n i r f
  | .done => hleft.lower hn
  | @ClimbTail.op _ _ _ _ _ _ _ _ _ op hop hlevel hfollow h t => by
      have hlevels := op.levels
      have hright := h.level (by omega) (by omega)
      -- Only behind a power is the level lower than that of the operator, and `n` is not 9.
      refine t.level hnine ?_ (hleft.apply hop hfollow hright)
      unfold levelOf
      simp only [List.mem_cons, List.not_mem_nil, or_false]
      split <;> omega

end

/-- Climbing from the lowest level derives the expressions of the grammar. -/
theorem climb_one_iff : Climb 1 i r e ↔ Expr i r e :=
  ⟨fun h => h.level (by decide) (by decide), Expr.climb⟩

/-- Climbing from the highest level derives the operands of the grammar. -/
theorem climb_ten_iff : Climb 10 i r e ↔ PostfixExpr i r e :=
  ⟨fun h => h.level (by decide) (by decide), fun h => .operand h .done⟩

end Grammar

end Bucket
