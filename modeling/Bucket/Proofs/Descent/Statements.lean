/-
# Procedures for statements

The procedures for blocks and statements do as a parser does that goes from state to state. A block is over
where it is closed or where a conditional statement goes on, which only a block with a condition does.
-/
import Bucket.Proofs.Descent.Arguments

namespace Bucket.Parser

/-! ## Blocks -/

theorem Block.addAll_concat (b : Block) (ss : List Statement) (s : Statement) :
    b.addAll (ss ++ [s]) = (b.addAll ss).add s := by
  simp [addAll]

/-- From a block that has a condition its statement goes on with a further condition or with the block for
when no condition holds, or it is over. -/
theorem Block.of_conditional? {b : Block} {c : Conditional} (h : b.conditional? = some c) :
    b.elif = some (.operand []
      (.slot (.elifCondition c.opener c.condition c.body c.alternatives c.outer))) ∧
    b.otherwise = some (.statementLine
      (.nested (.elsePart c.opener c.condition c.body c.alternatives) [] c.outer)) ∧
    ∀ t : Token, b.close t = .statements (c.outer.add
      (.conditional c.condition c.body c.alternatives [] (c.opener + t.span))) := by
  unfold conditional? at h
  split at h
  · cases h
    exact ⟨rfl, rfl, fun _ => rfl⟩
  · cases h
    exact ⟨rfl, rfl, fun _ => rfl⟩
  · cases h

namespace State

variable {r : Reader}

theorem answer_statements (b : Block) : (statements b).answer r =
    r.feed (stepStatements b r.current) ((statements b).expected r.current.kind) :=
  answer_eq_feed fun _ => rfl

/-- Where a block is over and its statement does not go on, its `end` is needed. -/
theorem answer_statements_of_endsBlock {b : Block} (hends : Script.endsBlock r.current = true)
    (helif : r.current.kind = .keyword .elifKw → b.elif = none)
    (helse : r.current.kind = .keyword .elseKw → b.otherwise = none) :
    (statements b).answer r =
      r.pass (.keyword .endKw) fun closer => b.close ⟨.keyword .endKw, closer⟩ := by
  rw [answer_statements, Reader.pass]
  simp only [Script.endsBlock, Bool.or_eq_true, beq_iff_eq] at hends
  rcases hends with ((hk | hk) | hk) | hk
  · have hk : r.current.kind = .symbol .endOfFile := Token.Kind.eq_endOfFile hk
    simp [stepStatements, expected, hk, stepOperand, PrefixOp.ofKind?, closeEmpty, Expectation.keyword]
  · have hclose : b.close r.current = b.close ⟨.keyword .endKw, r.current.span⟩ := by
      rw [← hk]
    simp [stepStatements, hk, hclose, Reader.feed]
  · simp [stepStatements, expected, hk, helif hk, Expectation.keyword]
  · simp [stepStatements, expected, hk, helse hk, Expectation.keyword]

/-- Where no other statement begins, an expression does. -/
theorem answer_statements_of_ne {b : Block} (hends : Script.endsBlock r.current = false)
    (hline : r.current.kind ≠ .symbol .newline) (hif : r.current.kind ≠ .keyword .ifKw)
    (hdo : r.current.kind ≠ .keyword .doKw) (hbreak : r.current.kind ≠ .keyword .breakKw)
    (hcycle : r.current.kind ≠ .keyword .cycleKw) (hret : r.current.kind ≠ .keyword .retKw) :
    (statements b).answer r = (operand [] (.slot (.statement b))).answer r := by
  simp only [Script.endsBlock, Bool.or_eq_false_iff, beq_eq_false_iff_ne] at hends
  obtain ⟨⟨⟨hfile, hend⟩, helif⟩, helse⟩ := hends
  have hstep : stepStatements b r.current = stepOperand [] (.slot (.statement b)) r.current := by
    unfold stepStatements
    split <;> first | contradiction | rfl
  have hexpected : (statements b).expected r.current.kind = .expression := by
    unfold expected
    dsimp only
    split
    · contradiction
    · contradiction
    · rename_i hk
      rw [Token.isEndOfFile, hk] at hfile
      cases hfile
    · rfl
  rw [answer_statements, hstep, hexpected]
  exact (answer_eq_feed (s := operand [] (.slot (.statement b))) fun _ => rfl).symm

end State

namespace Follows

variable {a : Answer} {r : Reader}

/-! ## Statements -/

/-- An expression that ends its line is handed to what it is for. -/
theorem lineExpression {s : Slot} {filled : Expression → State}
    (h : a = (State.operand [] (.slot s)).answer r) (hlevel : s.level = 1)
    (hdeliver : ∀ e t, s.deliver e t = if t.kind = .symbol .newline then some (filled e) else none) :
    Follows a (Script.perform .expression ()) r fun e r' a =>
      a = r'.pass (.symbol .newline) fun _ => filled e := by
  have hexpected : (Context.slot s).expected = .symbol .newline := by
    cases s with
    | argument name span header => cases hlevel
    | _ => rfl
  refine (call .expression () (Room.whole (.slot s) (Nat.le_of_eq hlevel) rfl
    fun h => absurd h (by decide)) h).weaken fun e r₁ h₁ => ?_
  have h₁ : a = r₁.feed (s.deliver e r₁.current) (Context.slot s).expected := h₁.deliver hlevel
  rw [h₁, hexpected, hdeliver]
  rfl

theorem block (b : Block) (h : a = (State.statements (b.addAll [])).answer r) :
    Follows a Script.block r fun ss r' a =>
      Script.endsBlock r'.current = true ∧ a = (State.statements (b.addAll ss)).answer r' :=
  call .blockRound [] b h

theorem blockRound {before : List Statement} (b : Block)
    (h : a = (State.statements (b.addAll before)).answer r) :
    Follows a (Script.blockRound before) r fun ss r' a =>
      Script.endsBlock r'.current = true ∧ a = (State.statements (b.addAll ss)).answer r' := by
  refine current.bind ?_
  rintro _ _ ⟨rfl, rfl⟩
  split
  · rename_i hends
    exact done ⟨hends, h⟩
  rename_i hends
  refine branch (fun hk => ?_) fun hline => ?_
  · rw [State.answer_statements] at h
    simp only [stepStatements, hk] at h
    exact ⟨_, h, fun r₁ h₁ => call .blockRound before b h₁⟩
  · refine (call .statement () ⟨b.addAll before, by simpa using hends, hline⟩ h).bind
      fun s r₁ (h₁ : a = (State.statements ((b.addAll before).add s)).answer r₁) => ?_
    rw [← Block.addAll_concat] at h₁
    exact call .blockRound (before ++ [s]) b h₁

/-- A value is given back if there is one in the line. -/
theorem returned {keyword : Span} {b : Block} (h : a = (State.ret keyword b).answer r) :
    Follows a (Script.returned keyword) r fun s r' a =>
      a = r'.pass (.symbol .newline) fun _ => .statements (b.add s) := by
  refine current.bind ?_
  rintro _ _ ⟨rfl, rfl⟩
  split
  · rename_i hk
    refine done ?_
    rw [h, State.answer_eq_feed fun _ => rfl, Reader.pass, if_pos hk]
    simp only [State.step, hk]
    rfl
  · rename_i hk
    have hoperand : (State.ret keyword b).answer r =
        (State.operand [] (.slot (.ret keyword b))).answer r := by
      have hstep : (State.ret keyword b).step r.current =
          (State.operand [] (.slot (.ret keyword b))).step r.current := by
        unfold State.step
        dsimp only
        split
        · contradiction
        · rfl
      rw [State.answer_eq_feed fun _ => rfl, State.answer_eq_feed fun _ => rfl, hstep]
      rfl
    refine (lineExpression (h.trans hoperand) rfl fun _ _ => match_newline _ _).bind
      fun value r₁ h₁ => done h₁

/-- A statement without a block needs the end of its line. -/
theorem simpleStatement (b : Block) (h : a = (State.statements b).answer r)
    (hends : Script.endsBlock r.current = false) (hline : r.current.kind ≠ .symbol .newline)
    (hif : r.current.kind ≠ .keyword .ifKw) (hdo : r.current.kind ≠ .keyword .doKw) :
    Follows a Script.simpleStatement r fun s r' a =>
      a = r'.pass (.symbol .newline) fun _ => .statements (b.add s) := by
  have hfeed := h.trans (State.answer_statements b)
  refine branch (fun hk => ?_) fun hbreak => branch (fun hk => ?_) fun hcycle =>
    branch (fun hk => ?_) fun hret => ?_
  · simp only [stepStatements, hk] at hfeed
    exact ⟨_, hfeed, fun r₁ h₁ => done (h₁.trans (State.answer_statementLine _))⟩
  · simp only [stepStatements, hk] at hfeed
    exact ⟨_, hfeed, fun r₁ h₁ => done (h₁.trans (State.answer_statementLine _))⟩
  · simp only [stepStatements, hk] at hfeed
    exact ⟨_, hfeed, fun r₁ h₁ => returned h₁⟩
  · rw [State.answer_statements_of_ne hends hline hif hdo hbreak hcycle hret] at h
    exact (lineExpression h rfl fun _ _ => match_newline _ _).bind fun value r₁ h₁ => done h₁

theorem statement (b : Block) (hends : Script.endsBlock r.current = false)
    (hline : r.current.kind ≠ .symbol .newline) (h : a = (State.statements b).answer r) :
    Follows a Script.statement r fun s r' a => a = (State.statements (b.add s)).answer r' := by
  refine (call .ifStmt () b h).bind fun found r₁ h₁ => ?_
  cases found with
  | some s => exact done h₁
  | none =>
    obtain ⟨rfl, hif⟩ := h₁
    refine (call .loopStmt () b h).bind fun found r₁ h₁ => ?_
    cases found with
    | some s => exact done h₁
    | none =>
        obtain ⟨rfl, hdo⟩ := h₁
        refine (simpleStatement b h hends hline hif hdo).bind fun s r₁ h₁ => ?_
        exact (expectKind h₁).bind fun _ r₂ h₂ => done h₂

/-! ## Statements with blocks -/

/-- The block of a loop or behind `else`, which cannot go on, and what it is closed to. -/
theorem lastBlock {opened : Opened} {b : Block} {x : List Statement → Span → State}
    (h : a = (State.statements (.nested opened [] b)).answer r)
    (helif : ∀ ss, (Block.nested opened ss b).elif = none)
    (helse : ∀ ss, (Block.nested opened ss b).otherwise = none)
    (hclose : ∀ ss closer, (Block.nested opened ss b).close ⟨.keyword .endKw, closer⟩ = x ss closer) :
    Follows a (Script.perform .block ()) r fun ss r' a => a = r'.pass (.keyword .endKw) (x ss) := by
  refine (call .block () (.nested opened [] b) h).weaken ?_
  rintro ss r₁ ⟨hends, h₁⟩
  rw [Block.addAll_nested, List.nil_append,
    State.answer_statements_of_endsBlock hends (fun _ => helif ss) fun _ => helse ss] at h₁
  rw [h₁]
  exact congrArg (r₁.pass _) (funext (hclose ss))

/-- The block for when no condition holds may be missing, and then the last condition is closed. -/
theorem otherwise {b : Block} {c : Conditional} (hb : b.conditional? = some c)
    (hends : Script.endsBlock r.current = true) (helif : r.current.kind ≠ .keyword .elifKw)
    (h : a = (State.statements b).answer r) :
    Follows a Script.otherwise r fun ss r' a => a = r'.pass (.keyword .endKw) fun closer =>
      .statements (c.outer.add
        (.conditional c.condition c.body c.alternatives ss (c.opener + closer))) := by
  have hfeed := h.trans (State.answer_statements b)
  obtain ⟨-, hotherwise, hclose⟩ := Block.of_conditional? hb
  refine branch (fun hk => ?_) fun helse => done ?_
  · simp only [stepStatements, hk, hotherwise] at hfeed
    refine ⟨_, hfeed, fun r₁ h₁ => ?_⟩
    refine (expectKind (h₁.trans (State.answer_statementLine _))).bind fun _ r₂ h₂ => ?_
    exact lastBlock h₂ (fun _ => rfl) (fun _ => rfl) fun _ _ => rfl
  · rw [h, State.answer_statements_of_endsBlock hends (absurd · helif) (absurd · helse)]
    simp only [hclose]

theorem ifStmt (b : Block) (h : a = (State.statements b).answer r) :
    Follows a Script.ifStmt r ((Agreement.compound .ifKw r).after b) := by
  have hfeed := h.trans (State.answer_statements b)
  refine branch (fun hk => ?_) fun hif => done ⟨rfl, hif⟩
  simp only [stepStatements, hk] at hfeed
  refine ⟨_, hfeed, fun r₁ h₁ => ?_⟩
  refine (lineExpression h₁ rfl fun _ _ => match_newline _ _).bind fun condition r₂ h₂ => ?_
  refine (expectKind h₂).bind fun _ r₃ h₃ => ?_
  refine (call .block () _ h₃).bind ?_
  rintro body r₄ ⟨hends, h₄⟩
  rw [Block.addAll_nested, List.nil_append] at h₄
  refine (call .elifRound [] ⟨(_, _), rfl, rfl, hends⟩ h₄).bind ?_
  rintro alternatives r₅ ⟨hends, helif, b', hb', h₅⟩
  refine (otherwise hb' hends helif h₅).bind fun ss r₆ h₆ => ?_
  exact (expectKind h₆).bind fun closer r₇ h₇ => done h₇

theorem elifRound {before : List (Expression × List Statement)} {b : Block} {c : Conditional}
    (hb : b.conditional? = some c) (hbefore : c.alternatives = before)
    (hends : Script.endsBlock r.current = true) (h : a = (State.statements b).answer r) :
    Follows a (Script.elifRound before) r fun alternatives r' a =>
      Script.endsBlock r'.current = true ∧ r'.current.kind ≠ .keyword .elifKw ∧
        ∃ b' : Block, b'.conditional? = some { c with alternatives := alternatives } ∧
          a = (State.statements b').answer r' := by
  subst hbefore
  have hfeed := h.trans (State.answer_statements b)
  refine branch (fun hk => ?_) fun helif => done ⟨hends, helif, b, hb, h⟩
  simp only [stepStatements, hk, (Block.of_conditional? hb).1] at hfeed
  refine ⟨_, hfeed, fun r₁ h₁ => ?_⟩
  refine (lineExpression h₁ rfl fun _ _ => match_newline _ _).bind fun condition r₂ h₂ => ?_
  refine (expectKind h₂).bind fun _ r₃ h₃ => ?_
  refine (call .block () _ h₃).bind ?_
  rintro body r₄ ⟨hends, h₄⟩
  rw [Block.addAll_nested, List.nil_append] at h₄
  exact call .elifRound _ ⟨(_, _), rfl, rfl, hends⟩ h₄

theorem loopStmt (b : Block) (h : a = (State.statements b).answer r) :
    Follows a Script.loopStmt r ((Agreement.compound .doKw r).after b) := by
  have hfeed := h.trans (State.answer_statements b)
  refine branch (fun hk => ?_) fun hdo => done ⟨rfl, hdo⟩
  simp only [stepStatements, hk] at hfeed
  refine ⟨_, hfeed, fun r₁ h₁ => ?_⟩
  refine (expectKind (h₁.trans (State.answer_statementLine _))).bind fun _ r₂ h₂ => ?_
  refine (lastBlock h₂ (fun _ => rfl) (fun _ => rfl) fun _ _ => rfl).bind fun body r₃ h₃ => ?_
  refine (expectKind h₃).bind fun closer r₄ h₄ => ?_
  exact (expectKind (h₄.trans (State.answer_statementLine _))).bind fun _ r₅ h₅ => done h₅

end Follows

end Bucket.Parser
