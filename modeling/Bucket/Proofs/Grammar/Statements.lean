/-
# Reading the tokens of a block

The tokens that are demanded where a statement begins are those that are read there
(`Block.takes_iff`). A block is ended by a token that begins no statement, and by such a token only,
so no statement is lost when as many as possible are read.
-/
import Bucket.Proofs.Grammar.Operands

namespace Bucket

open Bucket.Parser

namespace Grammar

variable {i r : Kinds} {k : Token.Kind}

/-! ## What statements begin with -/

/-- Whether a token may be the first one behind the statements of a block. -/
def EndsBlock (k : Token.Kind) : Prop :=
  k = .keyword .endKw ∨ k = .keyword .elifKw ∨ k = .keyword .elseKw

/-- The keywords that begin statements, and those that end blocks, begin no expression. -/
theorem beginsExpr_keyword {w : Keyword} (h : BeginsExpr (.keyword w)) : w = .notKw := by
  rcases h with h | h
  · exact h.elim
  · -- Of all keywords only `not` is an operator in front of its operand.
    cases w <;> first | rfl | simp [PrefixOp.ofKind?] at h

theorem not_expr_keyword {w : Keyword} {e : Expression} (hw : w ≠ .notKw) :
    ¬ Expr (.keyword w :: i) r e :=
  fun h => hw (beginsExpr_keyword h.begins)

theorem not_beginsExpr_newline : ¬ BeginsExpr (.symbol .newline) := by
  simp [BeginsExpr, BeginsOperand, PrefixOp.ofKind?]

/-- A statement begins with a keyword of its own or as an expression does. -/
theorem Stmt.begins {s : Statement} (h : Stmt i r s) :
    Heads (fun k => (∃ w ∈ [Keyword.ifKw, .doKw, .breakKw, .cycleKw, .retKw], k = .keyword w) ∨
      BeginsExpr k) i := by
  cases h with
  | conditional h => cases h; exact .inl ⟨_, by decide, rfl⟩
  | loop h => cases h; exact .inl ⟨_, by decide, rfl⟩
  | expression h => exact h.begins.imp fun _ => .inr
  | _ => exact .inl ⟨_, by decide, rfl⟩

theorem not_stmt_newline {s : Statement} : ¬ Stmt (.symbol .newline :: i) r s := by
  intro h
  rcases h.begins with ⟨w, -, hw⟩ | h
  · simp at hw
  · exact not_beginsExpr_newline h

theorem EndsBlock.not_stmt {s : Statement} (hk : EndsBlock k) : ¬ Stmt (k :: i) r s := by
  intro h
  rcases h.begins with ⟨w, hw, rfl⟩ | h
  · simp only [List.mem_cons, List.not_mem_nil, or_false] at hw
    rcases hw with rfl | rfl | rfl | rfl | rfl <;> simp [EndsBlock] at hk
  · rcases hk with rfl | rfl | rfl
    · exact absurd (beginsExpr_keyword h) (by decide)
    · exact absurd (beginsExpr_keyword h) (by decide)
    · exact absurd (beginsExpr_keyword h) (by decide)

end Grammar

namespace Parser

open Grammar (Kinds Heads Expr Stmt EndsBlock)

variable {ds : List Declaration} {i : Kinds} {k : Token.Kind}

/-! ## Ends of conditionals -/

section

variable {demand : List (Expression × List Statement) → List Statement → Kinds → Prop}

theorem alternatives_end_iff :
    Alternatives demand (.keyword .endKw :: i) ↔ demand [] [] i := by
  constructor
  · rintro ⟨j, r, as, otherwise, helifs, helse, h⟩
    cases helifs
    cases helse
    exact h
  · intro h
    exact ⟨_, i, [], [], .done, .absent, h⟩

/-- A further condition is read with its block, and then what else there is. -/
theorem alternatives_elif_iff :
    Alternatives demand (.keyword .elifKw :: i) ↔
      ∃ e j, Expr i (.symbol .newline :: j) e ∧ ∃ body r, Grammar.Block j r body ∧
        Alternatives (fun as => demand ((e, body) :: as)) r := by
  constructor
  · rintro ⟨j, r, as, otherwise, helifs, helse, h⟩
    cases helifs with
    | done => cases helse
    -- What else there is belongs to what is demanded behind the new condition.
    | elif he hbody helifs => exact ⟨_, _, he, _, _, hbody, j, r, _, otherwise, helifs, helse, h⟩
  · rintro ⟨e, j, he, body, l, hbody, r, s, as, otherwise, helifs, helse, h⟩
    exact ⟨r, s, _, otherwise, .elif he hbody helifs, helse, h⟩

theorem alternatives_else_iff :
    Alternatives demand (.keyword .elseKw :: i) ↔
      Next (.symbol .newline) (fun j => ∃ body r, Grammar.Block j r body ∧
        Next (.keyword .endKw) (demand [] body) r) i := by
  constructor
  · rintro ⟨j, r, as, otherwise, helifs, helse, h⟩
    cases helifs
    cases helse with
    | present hbody => exact ⟨rfl, otherwise, _, hbody, rfl, h⟩
  · intro h
    obtain ⟨j, rfl⟩ := exists_of_next h
    obtain ⟨-, body, r, hbody, h⟩ := h
    obtain ⟨l, rfl⟩ := exists_of_next h
    exact ⟨_, l, [], body, .done, .present hbody, h.2⟩

theorem Alternatives.ends (h : Alternatives demand i) : Heads EndsBlock i := by
  obtain ⟨j, r, as, otherwise, helifs, helse, -⟩ := h
  cases helifs with
  | elif _ _ _ => exact .inr (.inl rfl)
  | done =>
      cases helse with
      | absent => exact .inl rfl
      | present _ => exact .inr (.inr rfl)

end

/-! ## Ends of blocks -/

namespace Block

theorem ends_add (b : Block) (s : Statement) (more : List Statement) :
    (b.add s).Ends ds more i ↔ b.Ends ds (s :: more) i := by
  cases b with
  | method header returns done => simp [add, Ends]
  | nested opened done outer => cases opened <;> simp [add, Ends]

/-- The rest of a block behind a statement is what is left once the statement is added. -/
theorem resumes_ends (b : Block) (s : Statement) :
    Resumes (b.Ends ds) s = (b.add s).Takes ds := by
  funext i
  simp only [Takes, Resumes, ends_add]

/-- Blocks are ended by `end`, by a further condition, or by the block for when none holds. -/
theorem Ends.ends {b : Block} {more : List Statement} (h : b.Ends ds more i) :
    Heads EndsBlock i := by
  cases b with
  | method header returns done => exact (Next.heads h).imp fun _ => .inl
  | nested opened done outer =>
      cases opened with
      | thenPart opener condition => exact Alternatives.ends h
      | elifPart opener condition body alternatives current => exact Alternatives.ends h
      | elsePart opener condition body alternatives => exact (Next.heads h).imp fun _ => .inl
      | loop opener => exact (Next.heads h).imp fun _ => .inl

theorem not_takes_nil (b : Block) : ¬ b.Takes ds [] := by
  rintro ⟨more, r, hblock, h⟩
  cases hblock with
  | done => exact h.ends
  | statement hs _ => exact hs.begins

theorem takes_newline_iff (b : Block) : b.Takes ds (.symbol .newline :: i) ↔ b.Takes ds i := by
  constructor
  · rintro ⟨more, r, hblock, h⟩
    cases hblock with
    | done => exact absurd h.ends (by simp [Grammar.Heads, EndsBlock])
    | newline hblock => exact ⟨more, r, hblock, h⟩
    | statement hs _ => exact absurd hs Grammar.not_stmt_newline
  · rintro ⟨more, r, hblock, h⟩
    exact ⟨more, r, .newline hblock, h⟩

/-- A token that ends a block begins no further statement. -/
theorem takes_end_iff (hk : EndsBlock k) (b : Block) :
    b.Takes ds (k :: i) ↔ b.Ends ds [] (k :: i) := by
  constructor
  · rintro ⟨more, r, hblock, h⟩
    cases hblock with
    | done => exact h
    | newline _ => simp [EndsBlock] at hk
    | statement hs _ => exact absurd hs hk.not_stmt
  · intro h
    exact ⟨[], _, .done, h⟩

/-- Every other token begins a statement. -/
theorem takes_statement_iff (hnewline : k ≠ .symbol .newline) (hk : ¬ EndsBlock k) (b : Block) :
    b.Takes ds (k :: i) ↔ ∃ s r, Stmt (k :: i) r s ∧ Resumes (b.Ends ds) s r := by
  constructor
  · rintro ⟨more, r, hblock, h⟩
    cases hblock with
    | done => exact absurd h.ends hk
    | newline _ => exact absurd rfl hnewline
    | statement hs hblock => exact ⟨_, _, hs, _, r, hblock, h⟩
  · rintro ⟨s, r, hs, more, l, hblock, h⟩
    exact ⟨s :: more, l, .statement hs hblock, h⟩

/-! ## Steps of blocks -/

theorem ends_close_iff (b : Block) :
    b.Ends ds [] (.keyword .endKw :: i) ↔ (b.close ⟨.keyword .endKw, .first⟩).Takes ds i := by
  cases b with
  | method header returns done => simp [Ends, close, State.Takes]
  | nested opened done outer =>
      cases opened <;>
        simp [Ends, close, State.Takes, alternatives_end_iff, resumes_ends]

theorem ends_elif_iff (b : Block) :
    b.Ends ds [] (.keyword .elifKw :: i) ↔ AfterStep ds b.elif i := by
  cases b with
  | method header returns done => simp [Ends, elif]
  | nested opened done outer =>
      cases opened with
      | thenPart opener condition =>
          rw [Ends, alternatives_elif_iff, elif, afterStep_some, State.Takes,
            Context.takes_line_iff rfl fun _ => rfl]
          simp [Takes, Ends]
      | elifPart opener condition body alternatives current =>
          rw [Ends, alternatives_elif_iff, elif, afterStep_some, State.Takes,
            Context.takes_line_iff rfl fun _ => rfl]
          simp [Takes, Ends]
      | elsePart opener condition body alternatives => simp [Ends, elif]
      | loop opener => simp [Ends, elif]

theorem ends_otherwise_iff (b : Block) :
    b.Ends ds [] (.keyword .elseKw :: i) ↔ AfterStep ds b.otherwise i := by
  cases b with
  | method header returns done => simp [Ends, otherwise]
  | nested opened done outer =>
      cases opened with
      | thenPart opener condition =>
          rw [Ends, alternatives_else_iff, otherwise, afterStep_some, State.Takes,
            List.append_nil]
          rfl
      | elifPart opener condition body alternatives current =>
          rw [Ends, alternatives_else_iff, otherwise, afterStep_some, State.Takes,
            List.append_nil]
          rfl
      | elsePart opener condition body alternatives => simp [Ends, otherwise]
      | loop opener => simp [Ends, otherwise]

/-- A conditional is read from its condition on. -/
theorem takes_if_iff (b : Block) :
    b.Takes ds (.keyword .ifKw :: i) ↔
      (Context.slot (.ifCondition .first b)).Takes ds [] i := by
  rw [takes_statement_iff (by simp) (by simp [EndsBlock]), Context.takes_line_iff rfl fun _ => rfl]
  constructor
  · rintro ⟨s, r, hs, h⟩
    cases hs with
    | conditional hs =>
        obtain ⟨he, hbody, helifs, helse⟩ := hs
        refine ⟨_, _, he, _, _, hbody, _, _, _, _, helifs, helse, ?_⟩
        rwa [Span.first_add_first]
    | loop hs => cases hs
    | expression he => exact absurd he (Grammar.not_expr_keyword (by decide))
  · rintro ⟨e, j, he, body, r, hbody, l, s, as, otherwise, helifs, helse, h⟩
    rw [Span.first_add_first] at h
    exact ⟨_, _, .conditional (.mk he hbody helifs helse), h⟩

/-- A loop is read from the end of its first line on, and has a line end behind its `end`. -/
theorem takes_do_iff (b : Block) :
    b.Takes ds (.keyword .doKw :: i) ↔
      Next (.symbol .newline) ((nested (.loop .first) [] b).Takes ds) i := by
  rw [takes_statement_iff (by simp) (by simp [EndsBlock])]
  constructor
  · rintro ⟨s, r, hs, h⟩
    cases hs with
    | conditional hs => cases hs
    | loop hs =>
        obtain ⟨hbody⟩ := hs
        refine ⟨rfl, _, _, hbody, rfl, rfl, ?_⟩
        rwa [Span.first_add_first]
    | expression he => exact absurd he (Grammar.not_expr_keyword (by decide))
  · intro h
    obtain ⟨j, rfl⟩ := exists_of_next h
    obtain ⟨-, body, r, hbody, h⟩ := h
    -- Behind the block there are its `end` and a line end.
    obtain ⟨l, rfl⟩ := exists_of_next h
    obtain ⟨s, rfl⟩ := exists_of_next h.2
    have h := h.2.2
    rw [Span.first_add_first] at h
    exact ⟨_, _, .loop (.mk hbody), h⟩

theorem takes_break_iff (b : Block) :
    b.Takes ds (.keyword .breakKw :: i) ↔
      Next (.symbol .newline) ((b.add (.leave .first)).Takes ds) i := by
  rw [takes_statement_iff (by simp) (by simp [EndsBlock]), ← resumes_ends]
  constructor
  · rintro ⟨s, r, hs, h⟩
    cases hs with
    | conditional hs => cases hs
    | loop hs => cases hs
    | leave => exact ⟨rfl, h⟩
    | expression he => exact absurd he (Grammar.not_expr_keyword (by decide))
  · intro h
    obtain ⟨j, rfl⟩ := exists_of_next h
    exact ⟨_, j, .leave, h.2⟩

theorem takes_cycle_iff (b : Block) :
    b.Takes ds (.keyword .cycleKw :: i) ↔
      Next (.symbol .newline) ((b.add (.cycle .first)).Takes ds) i := by
  rw [takes_statement_iff (by simp) (by simp [EndsBlock]), ← resumes_ends]
  constructor
  · rintro ⟨s, r, hs, h⟩
    cases hs with
    | conditional hs => cases hs
    | loop hs => cases hs
    | cycle => exact ⟨rfl, h⟩
    | expression he => exact absurd he (Grammar.not_expr_keyword (by decide))
  · intro h
    obtain ⟨j, rfl⟩ := exists_of_next h
    exact ⟨_, j, .cycle, h.2⟩

/-- Behind `ret` there may be a value. -/
theorem takes_ret_iff (b : Block) :
    b.Takes ds (.keyword .retKw :: i) ↔ (State.ret .first b).Takes ds i := by
  rw [takes_statement_iff (by simp) (by simp [EndsBlock]), State.Takes, ← resumes_ends]
  show _ ↔ _ ∨ (Context.slot (.ret .first b)).Takes ds [] i
  rw [Context.takes_line_iff rfl fun _ => rfl]
  constructor
  · rintro ⟨s, r, hs, h⟩
    cases hs with
    | conditional hs => cases hs
    | loop hs => cases hs
    | ret => exact .inl ⟨rfl, h⟩
    | retValue he =>
        refine .inr ⟨_, _, he, ?_⟩
        rwa [he.span, Span.first_add_first, ← resumes_ends]
    | expression he => exact absurd he (Grammar.not_expr_keyword (by decide))
  · rintro (h | ⟨e, j, he, h⟩)
    · obtain ⟨j, rfl⟩ := exists_of_next h
      exact ⟨_, j, .ret, h.2⟩
    · rw [he.span, Span.first_add_first, ← resumes_ends] at h
      exact ⟨_, j, .retValue he, h⟩

/-- The keywords that are read in a block before any expression is. -/
def keywords : List Keyword := [.endKw, .elifKw, .elseKw, .ifKw, .doKw, .breakKw, .cycleKw, .retKw]

/-- Every token that has no place of its own at the beginning of a statement begins an expression. -/
theorem takes_expression_iff (b : Block) (hnewline : k ≠ .symbol .newline)
    (hk : ∀ w ∈ keywords, k ≠ .keyword w) :
    b.Takes ds (k :: i) ↔ (Context.slot (.statement b)).Takes ds [] (k :: i) := by
  -- The two sides agree on the rule for expressions. No other rule begins with such a token.
  rw [takes_statement_iff hnewline, Context.takes_line_iff rfl fun _ => rfl]
  · constructor
    · rintro ⟨s, r, hs, h⟩
      cases hs with
      | conditional hs => cases hs; exact absurd rfl (hk _ (by decide))
      | loop hs => cases hs; exact absurd rfl (hk _ (by decide))
      | expression he =>
          refine ⟨_, _, he, ?_⟩
          rwa [he.span, ← resumes_ends]
      | _ => exact absurd rfl (hk _ (by decide))
    · rintro ⟨e, j, he, h⟩
      rw [he.span, ← resumes_ends] at h
      exact ⟨_, j, .expression he, h⟩
  · rintro (rfl | rfl | rfl)
    · exact hk .endKw (by decide) rfl
    · exact hk .elifKw (by decide) rfl
    · exact hk .elseKw (by decide) rfl

/-- The tokens that are demanded in a block are those that are read there. -/
theorem takes_iff (b : Block) :
    b.Takes ds (k :: i) ↔ AfterStep ds (stepStatements b ⟨k, .first⟩) i := by
  unfold stepStatements
  split
  case h_1 hk =>
    obtain rfl : k = .symbol .newline := hk
    rw [takes_newline_iff, afterStep_some, State.Takes]
  case h_2 hk =>
    obtain rfl : k = .keyword .endKw := hk
    rw [takes_end_iff (.inl rfl), ends_close_iff, afterStep_some]
  case h_3 hk =>
    obtain rfl : k = .keyword .elifKw := hk
    rw [takes_end_iff (.inr (.inl rfl)), ends_elif_iff]
  case h_4 hk =>
    obtain rfl : k = .keyword .elseKw := hk
    rw [takes_end_iff (.inr (.inr rfl)), ends_otherwise_iff]
  case h_5 hk =>
    obtain rfl : k = .keyword .ifKw := hk
    rw [takes_if_iff, afterStep_some, State.Takes]
  case h_6 hk =>
    obtain rfl : k = .keyword .doKw := hk
    rw [takes_do_iff, afterStep_some, State.Takes]
  case h_7 hk =>
    obtain rfl : k = .keyword .breakKw := hk
    rw [takes_break_iff, afterStep_some, State.Takes]
  case h_8 hk =>
    obtain rfl : k = .keyword .cycleKw := hk
    rw [takes_cycle_iff, afterStep_some, State.Takes]
  case h_9 hk =>
    obtain rfl : k = .keyword .retKw := hk
    rw [takes_ret_iff, afterStep_some]
  case h_10 hnewline hend helif helse hif hdo hbreak hcycle hret =>
    have hk : ∀ w ∈ keywords, k ≠ .keyword w := by
      intro w hw
      simp only [keywords, List.mem_cons, List.not_mem_nil, or_false] at hw
      rcases hw with rfl | rfl | rfl | rfl | rfl | rfl | rfl | rfl <;> assumption
    rw [takes_expression_iff b hnewline hk, Context.takes_iff]

end Block

end Parser

end Bucket
