/-
# Procedures for expressions

The procedures for expressions do as a parser does that goes from state to state. A procedure for operands
of a level may be called wherever the operators that wait need no higher level (`Room`). What it leaves
behind an operand is what the parser has there once the operators that were read with it are applied
(`Behind.apply`).
-/
import Bucket.Proofs.Descent.Agreement

namespace Bucket.Parser

/-! ## Operators -/

/-- The operators of a level are those whose level it is. -/
theorem Script.mem_operators {n : Nat} {k : Token.Kind} {op : InfixOp} :
    (k, op) ∈ operators n ↔ InfixOp.ofKind? k = some op ∧ op.level = n := by
  constructor
  · have hall : ∀ p ∈ operators n, InfixOp.ofKind? p.1 = some p.2 ∧ p.2.level = n := by
      unfold operators
      split <;> simp [InfixOp.ofKind?, InfixOp.level]
    exact hall (k, op)
  · rintro ⟨hop, rfl⟩
    obtain rfl := InfixOp.eq_kind_of_ofKind? hop
    cases op with
    | assign => decide
    | binary op => cases op <;> decide

theorem Script.mem_prefixOperators {k : Token.Kind} {op : PrefixOp} :
    (k, op) ∈ prefixOperators ↔ PrefixOp.ofKind? k = some op := by
  constructor
  · have hall : ∀ p ∈ prefixOperators, PrefixOp.ofKind? p.1 = some p.2 := by decide
    exact hall (k, op)
  · intro hop
    unfold PrefixOp.ofKind? at hop
    split at hop <;> cases hop <;> decide

/-- An operator in front of an operand is read where it may stand. -/
theorem stepOperand_of_ofKind? {t : Token} {op : PrefixOp} (hop : PrefixOp.ofKind? t.kind = some op)
    (waiting : List Waiting) (context : Context) :
    stepOperand waiting context t =
      if neededLevel waiting context ≤ PrefixOp.level then
        some (.operand (.prefixOp op t.span :: waiting) context)
      else none := by
  unfold stepOperand
  have hbegins := Grammar.not_beginsOperand_of_ofKind? hop
  split
  case h_1 hk => exact absurd (hk ▸ trivial) hbegins
  case h_2 hk => exact absurd (hk ▸ trivial) hbegins
  case h_3 hk => exact absurd (hk ▸ trivial) hbegins
  case h_4 => rw [hop]

/-! ## Places -/

/-- Nothing is closed where an operator waits for its operand. -/
theorem closeEmpty_cons (t : Token) (w : Waiting) (waiting : List Waiting) (context : Context) :
    closeEmpty t (w :: waiting) context = none := by
  cases context <;> simp [closeEmpty]

namespace Room

variable {n : Nat} {r : Reader}

/-- The operand of an operator that waits. -/
def behind (w : Waiting) {waiting : List Waiting} {context : Context}
    (hdescends : Descends context (w :: waiting)) (h : w.operandLevel = n) (r : Reader) : Room n r where
  waiting := w :: waiting
  context := context
  descends := hdescends
  level_le := Nat.le_of_eq h
  not_closed := closeEmpty_cons _ _ _ _
  no_operator hn := absurd hn (Nat.not_lt.2 (h ▸ w.operandLevel_le))

/-- An expression in brackets, or one that no expression is around. -/
def whole (context : Context) (h : context.level ≤ n) (hclosed : closeEmpty r.current [] context = none)
    (hn : 8 < n → PrefixOp.level < context.level) : Room n r where
  waiting := []
  context := context
  descends := trivial
  level_le := h
  not_closed := hclosed
  no_operator h := .inr (hn h)

/-- The state in which an operand is read reads the token that is shown. -/
theorem answer_state (room : Room n r) : room.state.answer r =
    r.feed (stepOperand room.waiting room.context r.current) .expression :=
  State.answer_eq_feed fun _ => rfl

end Room

namespace Behind

variable {n : Nat} {waiting : List Waiting} {context : Context} {e : Expression} {r : Reader} {a : Answer}

/-- An operator that waits is applied to its operand. -/
theorem apply {w : Waiting} (h : Behind n (w :: waiting) context e r a) (hn : w.operandLevel = n)
    (hdescends : Descends context (w :: waiting)) :
    a = r.feed (stepBehind (w.apply e) w.followLevel waiting context r.current) context.expected := by
  obtain ⟨follow, -, hover, h⟩ := h
  rw [h, stepBehind_cons (hn ▸ hover) hdescends]

/-- A whole expression is handed to what it is for. -/
theorem deliver (h : Behind n [] context e r a) (hn : context.level = n) :
    a = r.feed (context.deliver e r.current) context.expected := by
  obtain ⟨follow, -, hover, h⟩ := h
  rw [h, stepBehind_nil (hn ▸ hover)]

/-- What is an operand of a level is one of the level below if no operator of that one follows. -/
theorem of_succ (h : Behind (n + 1) waiting context e r a)
    (hne : ∀ op, InfixOp.ofKind? r.current.kind = some op → op.level ≠ n) :
    Behind n waiting context e r a := by
  obtain ⟨follow, hfollow, hover, h⟩ := h
  exact ⟨follow, by omega, hover.of_succ hne, h⟩

end Behind

/-! ## Operators between operands -/

/-- The operator that is next waits inside those that leave it its left operand. -/
theorem Descends.cons_infixOp {context : Context} {waiting : List Waiting}
    (hdescends : Descends context waiting) {op : InfixOp} (h : neededLevel waiting context ≤ op.level)
    (left : Expression) : Descends context (.infixOp left op :: waiting) := by
  -- Only a power needs a lower level for its operand than its own, and then it needs level 8.
  have hnine := neededLevel_ne_nine waiting context
  have hop := op.levels
  refine ⟨?_, hdescends⟩
  show neededLevel waiting context ≤ op.operandLevel
  omega

namespace Follows

variable {a : Answer} {n m : Nat} {r : Reader}

/-- No operator of the level is next where none of them was read. -/
theorem level_ne (h : ∀ op, (r.current.kind, op) ∉ Script.operators n) (op : InfixOp)
    (hop : InfixOp.ofKind? r.current.kind = some op) : op.level ≠ n :=
  fun hn => h op (Script.mem_operators.2 ⟨hop, hn⟩)

/-- An operator that is read once takes the operand in front of it, and waits for the right one. -/
theorem infixOnce (room : Room n r) {operand right : Script Expression}
    (hoperand : Follows a operand r (Behind (n + 1) room.waiting room.context))
    (hright : ∀ (r' : Reader) (room' : Room m r'), a = room'.state.answer r' →
      Follows a right r' (Behind m room'.waiting room'.context))
    (hlevels : ∀ op : InfixOp, op.level = n → op.operandLevel = m ∧ op.followLevel + 1 = n) :
    Follows a (Script.infixOnce n operand right) r (Behind n room.waiting room.context) := by
  refine hoperand.bind fun left r₁ h₁ => operator (fun op hop => ?_) fun hnone => ?_
  · obtain ⟨hop, hn⟩ := Script.mem_operators.1 hop
    obtain ⟨hm, hfollow⟩ := hlevels op hn
    obtain ⟨follow, hle, -, h₁⟩ := h₁
    have hlevel : neededLevel room.waiting room.context ≤ op.level := hn ▸ room.level_le
    rw [stepBehind_take hop room.descends hlevel (by omega)] at h₁
    refine ⟨_, h₁, fun r₂ h₂ => ?_⟩
    have hdescends := room.descends.cons_infixOp hlevel left
    refine (hright r₂ (Room.behind _ hdescends hm r₂) h₂).bind fun e r₃ h₃ => done ?_
    refine ⟨op.followLevel, by omega, fun op' _ => ?_, h₃.apply hm hdescends⟩
    omega
  · exact done (h₁.of_succ (level_ne hnone))

/-- An operator that groups to the left takes what was read as its left operand. -/
theorem infixRound (p : Round n r) {left : Expression} {operand : Script Expression}
    {again : Expression → Script Expression}
    (h : a = r.feed (stepBehind left p.follow p.waiting p.context r.current) p.context.expected)
    (hoperand : ∀ (r' : Reader) (room : Room (n + 1) r'), a = room.state.answer r' →
      Follows a operand r' (Behind (n + 1) room.waiting room.context))
    (hagain : ∀ (e : Expression) (r' : Reader) (p' : Round n r'),
      a = r'.feed (stepBehind e p'.follow p'.waiting p'.context r'.current) p'.context.expected →
      Follows a (again e) r' (Behind n p'.waiting p'.context))
    (hlevels : ∀ op : InfixOp, op.level = n → op.operandLevel = n + 1 ∧ op.followLevel = n) :
    Follows a (Script.infixRound n operand again left) r (Behind n p.waiting p.context) := by
  refine operator (fun op hop => ?_) fun hnone => ?_
  · obtain ⟨hop, hn⟩ := Script.mem_operators.1 hop
    obtain ⟨hoperandLevel, hfollow⟩ := hlevels op hn
    have hlevel : neededLevel p.waiting p.context ≤ op.level := hn ▸ p.level_le
    rw [stepBehind_take hop p.descends hlevel (hn ▸ p.le_follow)] at h
    refine ⟨_, h, fun r₁ h₁ => ?_⟩
    have hdescends := p.descends.cons_infixOp hlevel left
    refine (hoperand r₁ (Room.behind _ hdescends hoperandLevel r₁) h₁).bind fun e r₂ h₂ => ?_
    have h₂ := h₂.apply hoperandLevel hdescends
    refine hagain _ r₂ ⟨p.waiting, p.context, p.descends, p.level_le, op.followLevel,
      Nat.le_of_eq hfollow.symm, fun op' _ => ?_⟩ h₂
    omega
  · exact done ⟨p.follow, Nat.le_succ_of_le p.le_follow, p.operand_over.of_succ (level_ne hnone), h⟩

/-! ## Levels -/

theorem expression (room : Room 1 r) (h : a = room.state.answer r) :
    Follows a Script.expression r (Behind 1 room.waiting room.context) := by
  refine infixOnce room (call .orExpr () (room.tighten (by decide)) h)
    (fun _ room' h' => call .expression () room' h') fun op hop => ?_
  have hlevels := op.levels
  omega

theorem orExpr (room : Room 2 r) (h : a = room.state.answer r) :
    Follows a Script.orExpr r (Behind 2 room.waiting room.context) := by
  refine infixOnce room (call .andExpr () (room.tighten (by decide)) h)
    (fun _ room' h' => call .orExpr () room' h') fun op hop => ?_
  have hlevels := op.levels
  omega

theorem andExpr (room : Room 3 r) (h : a = room.state.answer r) :
    Follows a Script.andExpr r (Behind 3 room.waiting room.context) := by
  refine infixOnce room (call .equalityExpr () (room.tighten (by decide)) h)
    (fun _ room' h' => call .andExpr () room' h') fun op hop => ?_
  have hlevels := op.levels
  omega

theorem equalityExpr (room : Room 4 r) (h : a = room.state.answer r) :
    Follows a Script.equalityExpr r (Behind 4 room.waiting room.context) := by
  refine infixOnce room (call .comparisonExpr () (room.tighten (by decide)) h)
    (fun _ room' h' => call .comparisonExpr () room' h') fun op hop => ?_
  have hlevels := op.levels
  omega

theorem comparisonExpr (room : Room 5 r) (h : a = room.state.answer r) :
    Follows a Script.comparisonExpr r (Behind 5 room.waiting room.context) := by
  refine infixOnce room (call .additiveExpr () (room.tighten (by decide)) h)
    (fun _ room' h' => call .additiveExpr () room' h') fun op hop => ?_
  have hlevels := op.levels
  omega

theorem additiveExpr (room : Room 6 r) (h : a = room.state.answer r) :
    Follows a Script.additiveExpr r (Behind 6 room.waiting room.context) := by
  refine (call .multiplicativeExpr () (room.tighten (by decide)) h).bind ?_
  rintro left r₁ ⟨follow, hfollow, hover, h₁⟩
  exact call .additiveRound left
    ⟨room.waiting, room.context, room.descends, room.level_le, follow, by omega, hover⟩ h₁

theorem additiveRound {left : Expression} (p : Round 6 r)
    (h : a = r.feed (stepBehind left p.follow p.waiting p.context r.current) p.context.expected) :
    Follows a (Script.additiveRound left) r (Behind 6 p.waiting p.context) := by
  refine infixRound p h (fun _ room' h' => call .multiplicativeExpr () room' h')
    (fun e _ p' h' => call .additiveRound e p' h') fun op hop => ?_
  have hlevels := op.levels
  omega

theorem multiplicativeExpr (room : Room 7 r) (h : a = room.state.answer r) :
    Follows a Script.multiplicativeExpr r (Behind 7 room.waiting room.context) := by
  refine (call .unaryExpr () (room.tighten (by decide)) h).bind ?_
  rintro left r₁ ⟨follow, hfollow, hover, h₁⟩
  exact call .multiplicativeRound left
    ⟨room.waiting, room.context, room.descends, room.level_le, follow, by omega, hover⟩ h₁

theorem multiplicativeRound {left : Expression} (p : Round 7 r)
    (h : a = r.feed (stepBehind left p.follow p.waiting p.context r.current) p.context.expected) :
    Follows a (Script.multiplicativeRound left) r (Behind 7 p.waiting p.context) := by
  refine infixRound p h (fun _ room' h' => call .unaryExpr () room' h')
    (fun e _ p' h' => call .multiplicativeRound e p' h') fun op hop => ?_
  have hlevels := op.levels
  omega

/-- An operator in front of its operand waits for it, and any other token begins a power. -/
theorem unaryExpr (room : Room 8 r) (h : a = room.state.answer r) :
    Follows a Script.unaryExpr r (Behind 8 room.waiting room.context) := by
  refine current.bind ?_
  rintro _ _ ⟨rfl, rfl⟩
  -- No operator between operands has the level of those in front of one.
  have height : ∀ op : InfixOp, op.level ≠ 8 := by
    intro op
    have hlevels := op.levels
    omega
  refine operator (fun op hop => ?_) fun hnone => ?_
  · have hop := Script.mem_prefixOperators.1 hop
    have hlevel : neededLevel room.waiting room.context ≤ PrefixOp.level := room.level_le
    rw [room.answer_state, stepOperand_of_ofKind? hop, if_pos hlevel] at h
    refine ⟨_, h, fun r₁ h₁ => ?_⟩
    have hdescends : Descends room.context (.prefixOp op r.current.span :: room.waiting) :=
      ⟨hlevel, room.descends⟩
    refine (call .unaryExpr () (Room.behind _ hdescends rfl r₁) h₁).bind fun e r₂ h₂ => done ?_
    refine ⟨PrefixOp.level, by decide, fun op' _ => ?_, h₂.apply rfl hdescends⟩
    exact Nat.lt_or_gt_of_ne (height op')
  · have hop : PrefixOp.ofKind? r.current.kind = none := by
      cases hop : PrefixOp.ofKind? r.current.kind with
      | none => rfl
      | some op => exact absurd (Script.mem_prefixOperators.2 hop) (hnone op)
    refine (call .powerExpr () (room.bare (by decide) (.inl hop)) h).weaken fun e r₁ h₁ => ?_
    exact h₁.of_succ fun op _ => height op

theorem powerExpr (room : Room 9 r) (h : a = room.state.answer r) :
    Follows a Script.powerExpr r (Behind 9 room.waiting room.context) := by
  refine infixOnce room
    (call .postfixExpr () (room.bare (by decide) (room.no_operator (by decide))) h)
    (fun _ room' h' => call .unaryExpr () room' h') fun op hop => ?_
  have hlevels := op.levels
  omega

theorem postfixExpr (room : Room 10 r) (h : a = room.state.answer r) :
    Follows a Script.postfixExpr r (Behind 10 room.waiting room.context) :=
  (call .primaryExpr () room h).bind fun value _ h₁ =>
    call .postfixRound value (room.waiting, room.context) h₁

end Follows

end Bucket.Parser
