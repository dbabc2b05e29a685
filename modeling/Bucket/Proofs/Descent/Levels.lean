/-
# Behind an operand

A procedure for operands of a level leaves those operators that a procedure for a lower level has to read.
A parser that goes from state to state keeps the operators that wait, and decides at the next one which of
them have their operands. Behind an operand that is over both read the next operator where it may still
take the operand (`stepBehind_take`); an operator that waits has its operand where the next one may not
(`stepBehind_cons`); and where none may, the operand is handed on (`stepBehind_nil`).
-/
import Bucket.Proofs.Descent.Answers
import Bucket.Proofs.Grammar.Parsing

namespace Bucket.Parser

/-! ## What ends expressions -/

theorem Slot.endsExpr_of_deliver {s : Slot} {e : Expression} {t : Token} {s' : State}
    (h : s.deliver e t = some s') : EndsExpr t.kind := by
  unfold EndsExpr
  cases s <;> simp only [deliver] at h <;> split at h <;> simp_all

/-- An expression is handed on at a token that may end one. -/
theorem Context.endsExpr_of_deliver {c : Context} {e : Expression} {t : Token} {s' : State}
    (h : c.deliver e t = some s') : EndsExpr t.kind := by
  cases c with
  | slot s => exact Slot.endsExpr_of_deliver h
  | group opener waiting outer =>
      simp only [deliver] at h
      split at h
      · rename_i hk
        exact .inr (.inr (.inl hk))
      · cases h
  | arguments call waiting outer =>
      simp only [deliver] at h
      split at h
      · rename_i hk
        exact .inr (.inl hk)
      · split at h
        · rename_i hk
          rw [hk]
          exact call.brackets.endsExpr_closer
        · cases h

/-- No expression is handed on at an operator. -/
theorem Context.deliver_of_ofKind? {c : Context} {e : Expression} {t : Token} {op : InfixOp}
    (hop : InfixOp.ofKind? t.kind = some op) : c.deliver e t = none := by
  cases hdeliver : c.deliver e t with
  | none => rfl
  | some s => exact absurd (Context.endsExpr_of_deliver hdeliver) (InfixOp.not_endsExpr hop)

/-! ## The next operator -/

/-- Whether an operand is over where a token stands: if that is an operator, then none of a level that is
at least `n` and may follow the operand. -/
def Over (n follow : Nat) (t : Token) : Prop :=
  ∀ op, InfixOp.ofKind? t.kind = some op → op.level < n ∨ follow < op.level

/-- Reads a token behind an operand that does not go on by itself. Operators up to a level may follow the
operand. -/
def stepBehind (e : Expression) (follow : Nat) (waiting : List Waiting) (context : Context)
    (t : Token) : Option State :=
  match InfixOp.ofKind? t.kind with
  | some op =>
      let (left, outer, follow) := applyTighter op.level e follow waiting
      if context.level ≤ op.level ∧ op.level ≤ follow then
        some (.operand (.infixOp left op :: outer) context)
      else none
  | none => context.deliver (applyAll e waiting) t

section Behind

variable {e : Expression} {follow : Nat} {waiting : List Waiting} {context : Context} {t : Token}

/-- Behind an operand that does not go on by itself any operator may follow. -/
theorem stepPending_eq_stepBehind (p : Pending) (hround : t.kind ≠ .symbol .openParenthesis)
    (hsquare : t.kind ≠ .symbol .openBracket) (hperiod : t.kind ≠ .symbol .period) :
    stepPending p waiting context t = stepBehind p.value 9 waiting context t := by
  unfold stepPending
  split
  · contradiction
  · contradiction
  · contradiction
  · unfold stepBehind
    cases InfixOp.ofKind? t.kind with
    | none => rfl
    | some op => rfl

/-- No waiting operator has its operand where one stands that they may all leave to it. -/
theorem stepBehind_of_le {op : InfixOp} (hop : InfixOp.ofKind? t.kind = some op)
    (hlevel : neededLevel waiting context ≤ op.level) :
    stepBehind e follow waiting context t =
      if context.level ≤ op.level ∧ op.level ≤ follow then
        some (.operand (.infixOp e op :: waiting) context)
      else none := by
  have htighter : applyTighter op.level e follow waiting = (e, waiting, follow) := by
    cases waiting with
    | nil => rfl
    | cons w waiting => exact if_neg (Nat.not_lt.2 hlevel)
  simp only [stepBehind, hop, htighter]

/-- An operator takes the operand where all that wait may leave it to it. -/
theorem stepBehind_take {op : InfixOp} (hop : InfixOp.ofKind? t.kind = some op)
    (hdescends : Descends context waiting) (hlevel : neededLevel waiting context ≤ op.level)
    (hfollow : op.level ≤ follow) :
    stepBehind e follow waiting context t = some (.operand (.infixOp e op :: waiting) context) := by
  rw [stepBehind_of_le hop hlevel]
  exact if_pos ⟨hdescends.level_le hlevel, hfollow⟩

/-- An operator that may not follow the operand cannot stand where none that waits is applied first. -/
theorem stepBehind_of_lt {op : InfixOp} (hop : InfixOp.ofKind? t.kind = some op)
    (hlevel : neededLevel waiting context ≤ op.level) (hfollow : follow < op.level) :
    stepBehind e follow waiting context t = none := by
  rw [stepBehind_of_le hop hlevel]
  exact if_neg fun h => absurd h.2 (Nat.not_le.2 hfollow)

/-- An operator that waits is applied where its operand is over. -/
theorem stepBehind_cons {w : Waiting} (hover : Over w.operandLevel follow t)
    (hdescends : Descends context (w :: waiting)) :
    stepBehind e follow (w :: waiting) context t =
      stepBehind (w.apply e) w.followLevel waiting context t := by
  cases hop : InfixOp.ofKind? t.kind with
  | none => simp only [stepBehind, hop, applyAll, List.foldl_cons]
  | some op =>
      by_cases hlt : op.level < w.operandLevel
      · -- The operator binds less tight, and so it leaves the operand to the one that waits.
        simp only [stepBehind, hop, applyTighter, hlt, if_true]
      · -- The operator may not follow the operand, and it may not follow the application either.
        have hle : neededLevel (w :: waiting) context ≤ op.level := Nat.not_lt.1 hlt
        have hfollow := (hover op hop).resolve_left hlt
        rw [stepBehind_of_lt hop hle hfollow,
          stepBehind_of_lt hop (Nat.le_trans hdescends.1 hle) (Waiting.followLevel_lt hle)]

/-- An expression that is over is handed to what it is for. -/
theorem stepBehind_nil (hover : Over context.level follow t) :
    stepBehind e follow [] context t = context.deliver e t := by
  cases hop : InfixOp.ofKind? t.kind with
  | none => simp only [stepBehind, hop, applyAll, List.foldl_nil]
  | some op =>
      rw [Context.deliver_of_ofKind? hop]
      simp only [stepBehind, hop, applyTighter]
      have hover := hover op hop
      exact if_neg (by omega)

end Behind

/-- An operator of another level does not change whether an operand is over. -/
theorem Over.of_succ {n follow : Nat} {t : Token} (h : Over (n + 1) follow t)
    (hne : ∀ op, InfixOp.ofKind? t.kind = some op → op.level ≠ n) : Over n follow t := by
  intro op hop
  have hne := hne op hop
  rcases h op hop with h | h
  · left
    omega
  · exact .inr h


/-! ## Places for operands -/

/-- Where an operand of a level may stand. No waiting operator needs a higher level. -/
structure Room (n : Nat) (r : Reader) where
  waiting : List Waiting
  context : Context
  descends : Descends context waiting
  level_le : neededLevel waiting context ≤ n
  /-- There is an operand: no brackets are closed with nothing in them. -/
  not_closed : closeEmpty r.current waiting context = none
  /-- Operators in front of the operand are read by now, unless none may stand there. -/
  no_operator : 8 < n →
    PrefixOp.ofKind? r.current.kind = none ∨ PrefixOp.level < neededLevel waiting context

namespace Room

variable {n m : Nat} {r : Reader}

/-- The state in which the operand is read. -/
def state (room : Room n r) : State := .operand room.waiting room.context

/-- Where an operand may stand, one of the next level may stand, as long as it may begin with an operator
too. -/
def tighten (room : Room n r) (h : n < 8) : Room (n + 1) r where
  waiting := room.waiting
  context := room.context
  descends := room.descends
  level_le := Nat.le_succ_of_le room.level_le
  not_closed := room.not_closed
  no_operator hn := absurd hn (by omega)

/-- Where an operand may stand, one that does not begin with an operator may stand where none does. -/
def bare (room : Room n r) (h : n ≤ m) (hbare : PrefixOp.ofKind? r.current.kind = none ∨
    PrefixOp.level < neededLevel room.waiting room.context) : Room m r where
  waiting := room.waiting
  context := room.context
  descends := room.descends
  level_le := Nat.le_trans room.level_le h
  not_closed := room.not_closed
  no_operator _ := hbare

end Room

/-- Whether a parser that has an answer has read an operand of a level, where operators wait. -/
def Behind (n : Nat) (waiting : List Waiting) (context : Context) (e : Expression) (r : Reader)
    (a : Answer) : Prop :=
  ∃ follow, n ≤ follow + 1 ∧ Over n follow r.current ∧
    a = r.feed (stepBehind e follow waiting context r.current) context.expected

end Bucket.Parser
