/-
# Progress

Each call that a procedure makes has fewer tokens left than the call that it belongs to, or just as many
and a lower level (`Call.under_of_calls`). So between a call of a procedure and any later call of the same
one that it leads to there is a token that was read (`Call.left_lt_of_transGen`), and all calls come to an
end (`Call.existsUnique_returns`). What has to be known of the answers of calls is how many tokens they
leave, and whether they have read one (`Procedure.reads`).
-/
import Bucket.Proofs.Descent.Runs
import Mathlib.Logic.ExistsUnique
import Mathlib.Logic.Relation

namespace Bucket.Parser

/-! ## Levels -/

namespace Procedure

/-- Where no token is read between them, procedures call those of lower levels only. -/
def level : Procedure → Nat
  | program => 3
  | programRound => 2
  | globalStatement => 1
  | classDef => 0
  | classRound => 2
  | methodDef => 0
  | argumentRound => 1
  | argument => 0
  | fieldDecl => 0
  | block => 13
  | blockRound => 12
  | statement => 11
  | ifStmt => 0
  | elifRound => 0
  | loopStmt => 0
  | expression => 10
  | orExpr => 9
  | andExpr => 8
  | equalityExpr => 7
  | comparisonExpr => 6
  | additiveExpr => 5
  | additiveRound => 0
  | multiplicativeExpr => 4
  | multiplicativeRound => 0
  | unaryExpr => 3
  | powerExpr => 2
  | postfixExpr => 1
  | postfixRound => 0
  | primaryExpr => 0
  | arguments => 12
  | argumentsRound => 11

/-- Whether a procedure with this answer has read a token for sure. -/
def reads : (p : Procedure) → p.Output → Bool
  | program, _ | programRound, _ | block, _ | blockRound, _ | elifRound, _ => false
  | additiveRound, _ | multiplicativeRound, _ | postfixRound, _ => false
  | globalStatement, answer => answer.isSome
  | classDef, answer => answer.isSome
  | methodDef, answer => answer.isSome
  | fieldDecl, answer => answer.isSome
  | ifStmt, answer => answer.isSome
  | loopStmt, answer => answer.isSome
  | classRound, _ | argumentRound, _ | argument, _ | statement, _ => true
  | expression, _ | orExpr, _ | andExpr, _ | equalityExpr, _ | comparisonExpr, _ => true
  | additiveExpr, _ | multiplicativeExpr, _ | unaryExpr, _ | powerExpr, _ => true
  | postfixExpr, _ | primaryExpr, _ | arguments, _ | argumentsRound, _ => true

end Procedure

namespace Call

/-- How many tokens are left where a call is made. -/
def left (c : Call) : Nat := c.reader.left

/-- Whether a call has fewer tokens left than another one, or just as many and a lower level. -/
def Under (c' c : Call) : Prop :=
  c'.left < c.left ∨ c'.left = c.left ∧ c'.procedure.level < c.procedure.level

/-- No procedure leaves more tokens than there were, and there are fewer if it has read one. -/
def progress (c : Call) : Post c.procedure.Output :=
  ⟨fun b r' => r'.left ≤ c.left ∧ (c.procedure.reads b = true → r'.left < c.left), fun _ => True⟩

end Call

/-! ## Scripts that make progress -/

/-- Whether a script, as part of a call at which some number of tokens are left and that has some level,
only makes calls that lie under that one, and ends as is said unless it fails. -/
def Proceeds (left level : Nat) {α : Type} (m : Script α) (r : Reader) (Q : α → Reader → Prop) : Prop :=
  m.Ensures (fun c => c.left < left ∨ c.left ≤ left ∧ c.procedure.level < level) Call.progress r
    ⟨Q, fun _ => True⟩

namespace Proceeds

variable {α β : Type} {left level : Nat} {r : Reader} {Q : α → Reader → Prop}
  {p : Procedure} {input : p.Input} {kinds : List Token.Kind}

theorem done {a : α} (h : Q a r) : Proceeds left level (pure a) r Q := h

theorem bind {m : Script β} {k : β → Script α} {P : β → Reader → Prop}
    (hm : Proceeds left level m r P) (hk : ∀ b r', P b r' → Proceeds left level (k b) r' Q) :
    Proceeds left level (m >>= k) r Q := by
  rw [Proceeds, Script.ensures_bind]
  exact hm.imp hk fun _ => id

theorem weaken {m : Script α} {P : α → Reader → Prop} (hm : Proceeds left level m r P)
    (h : ∀ a r', P a r' → Q a r') : Proceeds left level m r Q := hm.imp h fun _ => id

theorem expected (e : Expectation) : Proceeds left level (Script.expected e : Script α) r Q := trivial

theorem current : Proceeds left level Script.current r fun t r' => r.current = t ∧ r = r' :=
  ⟨rfl, rfl⟩

/-- What is known of a call that lies under. -/
theorem call (h : r.left < left ∨ r.left ≤ left ∧ p.level < level) :
    Proceeds left level (Script.perform p input) r fun b r' =>
      r'.left ≤ r.left ∧ (p.reads b = true → r'.left < r.left) :=
  Script.ensures_perform.2 ⟨h, fun _ _ => id, fun _ => id⟩

/-- A call of a procedure that always reads a token. -/
theorem read (h : r.left < left ∨ r.left ≤ left ∧ p.level < level) (hp : ∀ b, p.reads b = true) :
    Proceeds left level (Script.perform p input) r fun _ r' => r'.left < r.left :=
  (call h).weaken fun b _ hb => hb.2 (hp b)

/-- A token that is not the end of the file may be passed or not. -/
theorem branch {k : Option Span → Script α} (hkinds : .symbol .endOfFile ∉ kinds)
    (hsome : ∀ span r', r'.left < r.left → Proceeds left level (k (some span)) r' Q)
    (hnone : Proceeds left level (k none) r Q) :
    Proceeds left level (Script.accept kinds >>= k) r Q := by
  refine (Script.ensures_bind _ _).2 (Script.ensures_accept.2 ⟨fun hmem => ⟨fun r' hr' => ?_,
    fun _ _ => trivial⟩, fun _ => hnone⟩)
  refine hsome _ r' (Reader.left_lt_of_next hr' ?_)
  rw [Bool.eq_false_iff]
  intro hend
  exact hkinds (Token.Kind.eq_endOfFile hend ▸ hmem)

/-- A token is passed, or the end of the file is met. -/
theorem expect (e : Expectation) :
    Proceeds left level (Script.expect kinds e) r fun _ r' => r'.left ≤ r.left := by
  refine (Script.ensures_bind _ _).2 (Script.ensures_accept.2 ⟨fun _ => ⟨fun r' hr' => ?_,
    fun _ _ => trivial⟩, fun _ => trivial⟩)
  exact Reader.left_le_of_next hr'

theorem expectKind (k : Token.Kind) :
    Proceeds left level (Script.expectKind k) r fun _ r' => r'.left ≤ r.left := expect _

theorem advance (h : r.current.isEndOfFile = false) :
    Proceeds left level Script.advance r fun _ r' => r'.left < r.left :=
  ⟨fun _ hr' => Reader.left_lt_of_next hr' h, fun _ _ => trivial⟩

/-- A name may be passed or not. -/
theorem identifier : Proceeds left level Script.identifier r fun named r' =>
    r'.left ≤ r.left ∧ (named.isSome = true → r'.left < r.left) := by
  refine current.bind ?_
  rintro _ _ ⟨rfl, rfl⟩
  split
  · rename_i hname
    have hcurrent : r.current.isEndOfFile = false := congrArg Token.Kind.isEndOfFile hname
    exact (advance hcurrent).bind fun _ r' hr' => done ⟨Nat.le_of_lt hr', fun _ => hr'⟩
  · exact done ⟨Nat.le_refl _, fun hfalse => nomatch hfalse⟩

theorem expectIdentifier (e : Expectation) :
    Proceeds left level (Script.expectIdentifier e) r fun _ r' => r'.left < r.left := by
  refine identifier.bind fun named r' hr' => ?_
  cases named with
  | some named => exact done (hr'.2 rfl)
  | none => exact expected e

/-- An operator may be passed or not. -/
theorem operator {ops : List (Token.Kind × β)} (hops : ∀ op ∈ ops, op.1 ≠ .symbol .endOfFile) :
    Proceeds left level (Script.operator ops) r fun op r' =>
      r'.left ≤ r.left ∧ (op.isSome = true → r'.left < r.left) := by
  induction ops with
  | nil => exact done ⟨Nat.le_refl _, fun hfalse => nomatch hfalse⟩
  | cons op rest ih =>
      have hop := hops op (by simp)
      refine branch (by simpa using hop.symm) (fun _ r' hr' => done ⟨Nat.le_of_lt hr', fun _ => hr'⟩) ?_
      exact ih fun op' hop' => hops op' (by simp [hop'])

end Proceeds

/-! ## Expressions -/

theorem Script.ne_endOfFile_of_mem_operators {n : Nat} :
    ∀ op ∈ operators n, op.1 ≠ .symbol .endOfFile := by
  unfold operators
  split <;> decide

namespace Proceeds

/-- An operand reads a token, and so does a right operand behind it. -/
theorem infixOnce {left level n : Nat} {r : Reader} {operand right : Script Expression}
    (hoperand : Proceeds left level operand r fun _ r' => r'.left < r.left)
    (hright : ∀ r' : Reader, r'.left < r.left →
      Proceeds left level right r' fun _ r'' => r''.left < r'.left) :
    Proceeds left level (Script.infixOnce n operand right) r fun _ r' => r'.left < r.left := by
  refine hoperand.bind fun _ r₁ h₁ => ?_
  refine (operator Script.ne_endOfFile_of_mem_operators).bind fun op r₂ h₂ => ?_
  cases op with
  | some op => exact (hright r₂ (by omega)).bind fun _ r₃ h₃ => done (by omega)
  | none => exact done (by omega)

/-- There is another round only behind an operator. -/
theorem infixRound {left level n : Nat} {r : Reader} {operand : Script Expression}
    {again : Expression → Script Expression} {e : Expression}
    (hoperand : ∀ r' : Reader, r'.left < r.left →
      Proceeds left level operand r' fun _ r'' => r''.left < r'.left)
    (hagain : ∀ (e : Expression) (r' : Reader), r'.left < r.left →
      Proceeds left level (again e) r' fun _ r'' => r''.left ≤ r'.left) :
    Proceeds left level (Script.infixRound n operand again e) r fun _ r' => r'.left ≤ r.left := by
  refine (operator Script.ne_endOfFile_of_mem_operators).bind fun op r₁ h₁ => ?_
  cases op with
  | none => exact done h₁.1
  | some op =>
      have h₁ := h₁.2 rfl
      refine (hoperand r₁ h₁).bind fun _ r₂ h₂ => ?_
      exact (hagain _ r₂ (by omega)).weaken fun _ r₃ h₃ => by omega

variable (r : Reader)

theorem expression : Proceeds r.left 10 Script.expression r fun _ r' => r'.left < r.left :=
  infixOnce (read (.inr ⟨Nat.le_refl _, by decide⟩) fun _ => rfl)
    fun _ h => read (.inl h) fun _ => rfl

theorem orExpr : Proceeds r.left 9 Script.orExpr r fun _ r' => r'.left < r.left :=
  infixOnce (read (.inr ⟨Nat.le_refl _, by decide⟩) fun _ => rfl)
    fun _ h => read (.inl h) fun _ => rfl

theorem andExpr : Proceeds r.left 8 Script.andExpr r fun _ r' => r'.left < r.left :=
  infixOnce (read (.inr ⟨Nat.le_refl _, by decide⟩) fun _ => rfl)
    fun _ h => read (.inl h) fun _ => rfl

theorem equalityExpr : Proceeds r.left 7 Script.equalityExpr r fun _ r' => r'.left < r.left :=
  infixOnce (read (.inr ⟨Nat.le_refl _, by decide⟩) fun _ => rfl)
    fun _ h => read (.inl h) fun _ => rfl

theorem comparisonExpr : Proceeds r.left 6 Script.comparisonExpr r fun _ r' => r'.left < r.left :=
  infixOnce (read (.inr ⟨Nat.le_refl _, by decide⟩) fun _ => rfl)
    fun _ h => read (.inl h) fun _ => rfl

theorem additiveExpr : Proceeds r.left 5 Script.additiveExpr r fun _ r' => r'.left < r.left := by
  refine (read (.inr ⟨Nat.le_refl _, by decide⟩) fun _ => rfl).bind fun _ r₁ h₁ => ?_
  exact (call (.inl h₁)).weaken fun _ r₂ h₂ => by omega

theorem additiveRound (e : Expression) :
    Proceeds r.left 0 (Script.additiveRound e) r fun _ r' => r'.left ≤ r.left :=
  infixRound (fun _ h => read (.inl h) fun _ => rfl)
    fun _ _ h => (call (.inl h)).weaken fun _ _ => And.left

theorem multiplicativeExpr :
    Proceeds r.left 4 Script.multiplicativeExpr r fun _ r' => r'.left < r.left := by
  refine (read (.inr ⟨Nat.le_refl _, by decide⟩) fun _ => rfl).bind fun _ r₁ h₁ => ?_
  exact (call (.inl h₁)).weaken fun _ r₂ h₂ => by omega

theorem multiplicativeRound (e : Expression) :
    Proceeds r.left 0 (Script.multiplicativeRound e) r fun _ r' => r'.left ≤ r.left :=
  infixRound (fun _ h => read (.inl h) fun _ => rfl)
    fun _ _ h => (call (.inl h)).weaken fun _ _ => And.left

theorem unaryExpr : Proceeds r.left 3 Script.unaryExpr r fun _ r' => r'.left < r.left := by
  refine current.bind ?_
  rintro _ _ ⟨rfl, rfl⟩
  refine (operator (by decide)).bind fun op r₁ h₁ => ?_
  cases op with
  | some op => exact (read (.inl (h₁.2 rfl)) fun _ => rfl).bind fun _ r₂ h₂ => done (by omega)
  | none => exact (read (.inr ⟨h₁.1, by decide⟩) fun _ => rfl).weaken fun _ r₂ h₂ => by omega

theorem powerExpr : Proceeds r.left 2 Script.powerExpr r fun _ r' => r'.left < r.left :=
  infixOnce (read (.inr ⟨Nat.le_refl _, by decide⟩) fun _ => rfl)
    fun _ h => read (.inl h) fun _ => rfl

theorem postfixExpr : Proceeds r.left 1 Script.postfixExpr r fun _ r' => r'.left < r.left := by
  refine (read (.inr ⟨Nat.le_refl _, by decide⟩) fun _ => rfl).bind fun _ r₁ h₁ => ?_
  exact (call (.inl h₁)).weaken fun _ r₂ h₂ => by omega

theorem memberArguments {left level : Nat} (hr : r.left < left) (name : Span) :
    Proceeds left level (Script.memberArguments name) r fun _ r' => r'.left ≤ r.left :=
  branch (by decide)
    (fun _ r₁ h₁ => (call (.inl (by omega))).weaken fun _ r₂ h₂ => by omega) (done (Nat.le_refl _))

theorem postfixRound (e : Expression) :
    Proceeds r.left 0 (Script.postfixRound e) r fun _ r' => r'.left ≤ r.left := by
  refine branch (by decide) (fun _ r₁ h₁ => ?_) ?_
  · refine (expectIdentifier _).bind fun ⟨name, span⟩ r₂ h₂ => ?_
    refine (memberArguments r₂ (by omega) span).bind fun ⟨arguments, stop⟩ r₃ h₃ => ?_
    exact (call (.inl (by omega))).weaken fun _ r₄ h₄ => by omega
  refine branch (by decide) (fun _ r₁ h₁ => ?_) ?_
  · refine (call (.inl h₁)).bind fun ⟨arguments, stop⟩ r₂ h₂ => ?_
    exact (call (.inl (by omega))).weaken fun _ r₃ h₃ => by omega
  refine branch (by decide) (fun _ r₁ h₁ => ?_) (done (Nat.le_refl _))
  refine (call (.inl h₁)).bind fun ⟨arguments, stop⟩ r₂ h₂ => ?_
  exact (call (.inl (by omega))).weaken fun _ r₃ h₃ => by omega

theorem named {left level : Nat} (hr : r.left < left) (name : String) (span : Span) :
    Proceeds left level (Script.named name span) r fun _ r' => r'.left ≤ r.left := by
  refine branch (by decide) (fun _ r₁ h₁ => ?_) (done (Nat.le_refl _))
  exact (call (.inl (by omega))).bind fun ⟨arguments, stop⟩ r₂ h₂ => done (by omega)

theorem primaryExpr : Proceeds r.left 0 Script.primaryExpr r fun _ r' => r'.left < r.left := by
  refine branch (by decide) (fun _ r₁ h₁ => ?_) ?_
  · refine (read (.inl h₁) fun _ => rfl).bind fun _ r₂ h₂ => ?_
    exact (expectKind _).bind fun _ r₃ h₃ => done (by omega)
  · refine current.bind ?_
    rintro _ _ ⟨rfl, rfl⟩
    split
    · rename_i name hname
      have hcurrent : r.current.isEndOfFile = false := congrArg Token.Kind.isEndOfFile hname
      refine (advance hcurrent).bind fun _ r₁ h₁ => ?_
      exact (named r₁ h₁ name _).weaken fun _ r₂ h₂ => by omega
    · rename_i v hv
      have hcurrent : r.current.isEndOfFile = false := congrArg Token.Kind.isEndOfFile hv
      exact (advance hcurrent).bind fun _ r₁ h₁ => done h₁
    · exact expected _

theorem closedArguments {left level : Nat} (brackets : Brackets)
    (hr : r.left < left ∨ r.left ≤ left ∧ Procedure.argumentsRound.level < level) :
    Proceeds left level (Script.closedArguments brackets) r fun _ r' => r'.left < r.left := by
  refine (read hr fun _ => rfl).bind fun _ r₁ h₁ => ?_
  exact (expectKind _).bind fun _ r₂ h₂ => done (by omega)

theorem arguments (brackets : Brackets) (mayBeEmpty : Bool) :
    Proceeds r.left 12 (Script.arguments brackets mayBeEmpty) r fun _ r' => r'.left < r.left := by
  have hclosed : Proceeds r.left 12 (Script.closedArguments brackets) r fun _ r' => r'.left < r.left :=
    closedArguments r brackets (.inr ⟨Nat.le_refl _, by decide⟩)
  cases mayBeEmpty with
  | false => exact hclosed
  | true => exact branch (by cases brackets <;> decide) (fun _ r₁ h₁ => done h₁) hclosed

theorem argumentsRound (before : List Expression) :
    Proceeds r.left 11 (Script.argumentsRound before) r fun _ r' => r'.left < r.left := by
  refine (read (.inr ⟨Nat.le_refl _, by decide⟩) fun _ => rfl).bind fun _ r₁ h₁ => ?_
  refine branch (by decide) (fun _ r₂ h₂ => ?_) (done h₁)
  exact (read (.inl (by omega)) fun _ => rfl).weaken fun _ r₃ h₃ => by omega

/-! ## Statements -/

theorem block : Proceeds r.left 13 Script.block r fun _ r' => r'.left ≤ r.left :=
  (call (.inr ⟨Nat.le_refl _, by decide⟩)).weaken fun _ _ => And.left

theorem blockRound (before : List Statement) :
    Proceeds r.left 12 (Script.blockRound before) r fun _ r' => r'.left ≤ r.left := by
  refine current.bind ?_
  rintro _ _ ⟨rfl, rfl⟩
  split
  · exact done (Nat.le_refl _)
  refine branch (by decide)
    (fun _ r₁ h₁ => (call (.inl h₁)).weaken fun _ r₂ h₂ => by omega) ?_
  refine (read (.inr ⟨Nat.le_refl _, by decide⟩) fun _ => rfl).bind fun _ r₁ h₁ => ?_
  exact (call (.inl h₁)).weaken fun _ r₂ h₂ => by omega

theorem returned {left level : Nat} (hr : r.left < left) (keyword : Span) :
    Proceeds left level (Script.returned keyword) r fun _ r' => r'.left ≤ r.left := by
  refine current.bind ?_
  rintro _ _ ⟨rfl, rfl⟩
  split
  · exact done (Nat.le_refl _)
  · exact (read (.inl hr) fun _ => rfl).bind fun _ r₁ h₁ => done (Nat.le_of_lt h₁)

theorem simpleStatement {left : Nat} (hr : r.left ≤ left) :
    Proceeds left 11 Script.simpleStatement r fun _ r' => r'.left < r.left := by
  refine branch (by decide) (fun _ r₁ h₁ => done h₁) ?_
  refine branch (by decide) (fun _ r₁ h₁ => done h₁) ?_
  refine branch (by decide)
    (fun _ r₁ h₁ => (returned r₁ (by omega) _).weaken fun _ r₂ h₂ => by omega) ?_
  exact (read (.inr ⟨hr, by decide⟩) fun _ => rfl).bind fun _ r₁ h₁ => done h₁

theorem statement : Proceeds r.left 11 Script.statement r fun _ r' => r'.left < r.left := by
  refine (call (.inr ⟨Nat.le_refl _, by decide⟩)).bind fun s r₁ h₁ => ?_
  cases s with
  | some s => exact done (h₁.2 rfl)
  | none =>
    refine (call (.inr ⟨h₁.1, by decide⟩)).bind fun s r₂ h₂ => ?_
    cases s with
    | some s =>
        have h₂ := h₂.2 rfl
        exact done (by omega)
    | none =>
        refine (simpleStatement r₂ (by omega)).bind fun s r₃ h₃ => ?_
        exact (expectKind _).bind fun _ r₄ h₄ => done (by omega)

theorem otherwise {left level : Nat} (hr : r.left < left) :
    Proceeds left level Script.otherwise r fun _ r' => r'.left ≤ r.left := by
  refine branch (by decide) (fun _ r₁ h₁ => ?_) (done (Nat.le_refl _))
  refine (expectKind _).bind fun _ r₂ h₂ => ?_
  exact (call (.inl (by omega))).weaken fun _ r₃ h₃ => by omega

theorem ifStmt : Proceeds r.left 0 Script.ifStmt r fun s r' =>
    r'.left ≤ r.left ∧ (s.isSome = true → r'.left < r.left) := by
  refine branch (by decide) (fun _ r₁ h₁ => ?_) (done ⟨Nat.le_refl _, fun hfalse => nomatch hfalse⟩)
  refine (read (.inl h₁) fun _ => rfl).bind fun _ r₂ h₂ => ?_
  refine (expectKind _).bind fun _ r₃ h₃ => ?_
  refine (call (.inl (by omega))).bind fun _ r₄ h₄ => ?_
  refine (call (.inl (by omega))).bind fun _ r₅ h₅ => ?_
  refine (otherwise r₅ (by omega)).bind fun _ r₆ h₆ => ?_
  exact (expectKind _).bind fun _ r₇ h₇ => done ⟨by omega, fun _ => by omega⟩

theorem elifRound (before : List (Expression × List Statement)) :
    Proceeds r.left 0 (Script.elifRound before) r fun _ r' => r'.left ≤ r.left := by
  refine branch (by decide) (fun _ r₁ h₁ => ?_) (done (Nat.le_refl _))
  refine (read (.inl h₁) fun _ => rfl).bind fun _ r₂ h₂ => ?_
  refine (expectKind _).bind fun _ r₃ h₃ => ?_
  refine (call (.inl (by omega))).bind fun _ r₄ h₄ => ?_
  exact (call (.inl (by omega))).weaken fun _ r₅ h₅ => by omega

theorem loopStmt : Proceeds r.left 0 Script.loopStmt r fun s r' =>
    r'.left ≤ r.left ∧ (s.isSome = true → r'.left < r.left) := by
  refine branch (by decide) (fun _ r₁ h₁ => ?_) (done ⟨Nat.le_refl _, fun hfalse => nomatch hfalse⟩)
  refine (expectKind _).bind fun _ r₂ h₂ => ?_
  refine (call (.inl (by omega))).bind fun _ r₃ h₃ => ?_
  refine (expectKind _).bind fun _ r₄ h₄ => ?_
  exact (expectKind _).bind fun _ r₅ h₅ => done ⟨by omega, fun _ => by omega⟩

/-! ## Declarations -/

theorem program : Proceeds r.left 3 Script.program r fun _ r' => r'.left ≤ r.left := by
  refine (call (.inr ⟨Nat.le_refl _, by decide⟩)).bind fun _ r₁ h₁ => ?_
  refine current.bind ?_
  rintro _ _ ⟨rfl, rfl⟩
  exact done h₁.1

theorem programRound (before : List Declaration) :
    Proceeds r.left 2 (Script.programRound before) r fun _ r' => r'.left ≤ r.left := by
  refine current.bind ?_
  rintro _ _ ⟨rfl, rfl⟩
  split
  · exact done (Nat.le_refl _)
  refine branch (by decide)
    (fun _ r₁ h₁ => (call (.inl h₁)).weaken fun _ r₂ h₂ => by omega) ?_
  refine (call (.inr ⟨Nat.le_refl _, by decide⟩)).bind fun d r₁ h₁ => ?_
  cases d with
  | some d =>
      have h₁ := h₁.2 rfl
      exact (call (.inl h₁)).weaken fun _ r₂ h₂ => by omega
  | none => exact expected _

theorem globalStatement : Proceeds r.left 1 Script.globalStatement r fun d r' =>
    r'.left ≤ r.left ∧ (d.isSome = true → r'.left < r.left) := by
  refine (call (.inr ⟨Nat.le_refl _, by decide⟩)).bind fun c r₁ h₁ => ?_
  cases c with
  | some c => exact done ⟨h₁.1, fun _ => h₁.2 rfl⟩
  | none =>
    refine (call (.inr ⟨h₁.1, by decide⟩)).bind fun m r₂ h₂ => ?_
    cases m with
    | some m =>
        have h₂ := h₂.2 rfl
        exact done ⟨by omega, fun _ => by omega⟩
    | none =>
      refine (call (.inr ⟨by omega, by decide⟩)).bind fun f r₃ h₃ => ?_
      cases f with
      | some f =>
          have h₃ := h₃.2 rfl
          exact done ⟨by omega, fun _ => by omega⟩
      | none => exact done ⟨by omega, fun hfalse => nomatch hfalse⟩

theorem classDef : Proceeds r.left 0 Script.classDef r fun c r' =>
    r'.left ≤ r.left ∧ (c.isSome = true → r'.left < r.left) := by
  refine branch (by decide) (fun _ r₁ h₁ => ?_) (done ⟨Nat.le_refl _, fun hfalse => nomatch hfalse⟩)
  refine (expectIdentifier _).bind fun ⟨name, span⟩ r₂ h₂ => ?_
  refine (expectKind _).bind fun _ r₃ h₃ => ?_
  refine (read (.inl (by omega)) fun _ => rfl).bind fun ⟨body, closer⟩ r₄ h₄ => ?_
  exact (expect _).bind fun _ r₅ h₅ => done ⟨by omega, fun _ => by omega⟩

theorem classRound (before : List Declaration) :
    Proceeds r.left 2 (Script.classRound before) r fun _ r' => r'.left < r.left := by
  refine branch (by decide) (fun _ r₁ h₁ => done h₁) ?_
  refine branch (by decide)
    (fun _ r₁ h₁ => (read (.inl h₁) fun _ => rfl).weaken fun _ r₂ h₂ => by omega) ?_
  refine (call (.inr ⟨Nat.le_refl _, by decide⟩)).bind fun d r₁ h₁ => ?_
  cases d with
  | some d =>
      have h₁ := h₁.2 rfl
      exact (read (.inl h₁) fun _ => rfl).weaken fun _ r₂ h₂ => by omega
  | none => exact expected _

theorem parameters {left level : Nat} (hr : r.left < left) :
    Proceeds left level Script.parameters r fun _ r' => r'.left ≤ r.left := by
  refine branch (by decide) (fun _ r₁ h₁ => ?_) (done (Nat.le_refl _))
  refine branch (by decide) (fun _ r₂ h₂ => done (by omega)) ?_
  refine (read (.inl (by omega)) fun _ => rfl).bind fun _ r₂ h₂ => ?_
  exact (expectKind _).bind fun _ r₃ h₃ => done (by omega)

theorem returnType {left level : Nat} (hr : r.left < left) :
    Proceeds left level Script.returnType r fun _ r' => r'.left ≤ r.left := by
  refine branch (by decide) (fun _ r₁ h₁ => ?_) (done (Nat.le_refl _))
  exact (read (.inl (by omega)) fun _ => rfl).bind fun _ r₂ h₂ => done (by omega)

theorem methodDef : Proceeds r.left 0 Script.methodDef r fun m r' =>
    r'.left ≤ r.left ∧ (m.isSome = true → r'.left < r.left) := by
  refine branch (by decide) (fun _ r₁ h₁ => ?_) (done ⟨Nat.le_refl _, fun hfalse => nomatch hfalse⟩)
  refine (expectIdentifier _).bind fun ⟨name, span⟩ r₂ h₂ => ?_
  refine (parameters r₂ (by omega)).bind fun _ r₃ h₃ => ?_
  refine (returnType r₃ (by omega)).bind fun _ r₄ h₄ => ?_
  refine (expectKind _).bind fun _ r₅ h₅ => ?_
  refine (call (.inl (by omega))).bind fun _ r₆ h₆ => ?_
  refine (expectKind _).bind fun _ r₇ h₇ => ?_
  exact (expect _).bind fun _ r₈ h₈ => done ⟨by omega, fun _ => by omega⟩

theorem argumentRound (before : List Argument) :
    Proceeds r.left 1 (Script.argumentRound before) r fun _ r' => r'.left < r.left := by
  refine (read (.inr ⟨Nat.le_refl _, by decide⟩) fun _ => rfl).bind fun _ r₁ h₁ => ?_
  refine branch (by decide) (fun _ r₂ h₂ => ?_) (done h₁)
  exact (read (.inl (by omega)) fun _ => rfl).weaken fun _ r₃ h₃ => by omega

theorem argument : Proceeds r.left 0 Script.argument r fun _ r' => r'.left < r.left := by
  refine (expectIdentifier _).bind fun ⟨name, span⟩ r₁ h₁ => ?_
  refine (expectKind _).bind fun _ r₂ h₂ => ?_
  exact (read (.inl (by omega)) fun _ => rfl).bind fun _ r₃ h₃ => done (by omega)

theorem fieldDecl : Proceeds r.left 0 Script.fieldDecl r fun f r' =>
    r'.left ≤ r.left ∧ (f.isSome = true → r'.left < r.left) := by
  refine identifier.bind fun named r₁ h₁ => ?_
  cases named with
  | none => exact done ⟨h₁.1, fun hfalse => nomatch hfalse⟩
  | some named =>
      have h₁ := h₁.2 rfl
      refine (expectKind _).bind fun _ r₂ h₂ => ?_
      refine (read (.inl (by omega)) fun _ => rfl).bind fun _ r₃ h₃ => ?_
      exact (expectKind _).bind fun _ r₄ h₄ => done ⟨by omega, fun _ => by omega⟩

end Proceeds

/-! ## All procedures -/

/-- Each procedure only makes calls that lie under its own, and reads as many tokens as is said. -/
theorem Call.proceeds (c : Call) : Proceeds c.left c.procedure.level c.script c.reader fun b r' =>
    r'.left ≤ c.left ∧ (c.procedure.reads b = true → r'.left < c.left) := by
  obtain ⟨p, input, r⟩ := c
  -- A procedure that has read a token for sure leaves fewer, and one that has read none for sure can only
  -- leave no more.
  have hread : ∀ {α : Type} {l n : Nat} {m : Script α} {reads : α → Bool},
      (Proceeds l n m r fun _ r' => r'.left < r.left) → Proceeds l n m r fun b r' =>
        r'.left ≤ r.left ∧ (reads b = true → r'.left < r.left) :=
    fun h => h.weaken fun _ _ hlt => ⟨Nat.le_of_lt hlt, fun _ => hlt⟩
  have hkept : ∀ {α : Type} {l n : Nat} {m : Script α},
      (Proceeds l n m r fun _ r' => r'.left ≤ r.left) → Proceeds l n m r fun _ r' =>
        r'.left ≤ r.left ∧ (false = true → r'.left < r.left) :=
    fun h => h.weaken fun _ _ hle => ⟨hle, fun hfalse => nomatch hfalse⟩
  cases p with
  | program => exact hkept (Proceeds.program r)
  | programRound => exact hkept (Proceeds.programRound r input)
  | globalStatement => exact Proceeds.globalStatement r
  | classDef => exact Proceeds.classDef r
  | classRound => exact hread (Proceeds.classRound r input)
  | methodDef => exact Proceeds.methodDef r
  | argumentRound => exact hread (Proceeds.argumentRound r input)
  | argument => exact hread (Proceeds.argument r)
  | fieldDecl => exact Proceeds.fieldDecl r
  | block => exact hkept (Proceeds.block r)
  | blockRound => exact hkept (Proceeds.blockRound r input)
  | statement => exact hread (Proceeds.statement r)
  | ifStmt => exact Proceeds.ifStmt r
  | elifRound => exact hkept (Proceeds.elifRound r input)
  | loopStmt => exact Proceeds.loopStmt r
  | expression => exact hread (Proceeds.expression r)
  | orExpr => exact hread (Proceeds.orExpr r)
  | andExpr => exact hread (Proceeds.andExpr r)
  | equalityExpr => exact hread (Proceeds.equalityExpr r)
  | comparisonExpr => exact hread (Proceeds.comparisonExpr r)
  | additiveExpr => exact hread (Proceeds.additiveExpr r)
  | additiveRound => exact hkept (Proceeds.additiveRound r input)
  | multiplicativeExpr => exact hread (Proceeds.multiplicativeExpr r)
  | multiplicativeRound => exact hkept (Proceeds.multiplicativeRound r input)
  | unaryExpr => exact hread (Proceeds.unaryExpr r)
  | powerExpr => exact hread (Proceeds.powerExpr r)
  | postfixExpr => exact hread (Proceeds.postfixExpr r)
  | postfixRound => exact hkept (Proceeds.postfixRound r input)
  | primaryExpr => exact hread (Proceeds.primaryExpr r)
  | arguments => exact hread (Proceeds.arguments r input.1 input.2)
  | argumentsRound => exact hread (Proceeds.argumentsRound r input)

namespace Call

/-- What is said of the answers of calls is shown by their scripts. -/
theorem exists_ensures_progress (c : Call) :
    ∃ asks, c.script.Ensures asks Call.progress c.reader c.progress :=
  ⟨_, c.proceeds⟩

/-- A call that another one leads to lies under it. -/
theorem under_of_calls {c c' : Call} (h : c.Calls c') : c'.Under c := by
  have hunder := Reaches.asked exists_ensures_progress c.proceeds h
  unfold Under
  omega

/-- Between a call and a later one that it leads to, a token was read or the level has gone down. -/
theorem under_of_transGen {c c' : Call} (h : Relation.TransGen Calls c c') : c'.Under c := by
  induction h with
  | single h => exact under_of_calls h
  | tail _ h ih =>
      have hunder := under_of_calls h
      unfold Under at ih hunder ⊢
      omega

/-- A procedure is not called again by way of its own calls before a token was read. -/
theorem left_lt_of_transGen {c c' : Call} (h : Relation.TransGen Calls c c')
    (hsame : c'.procedure = c.procedure) : c'.left < c.left := by
  rcases under_of_transGen h with hlt | ⟨-, hlevel⟩
  · exact hlt
  · rw [hsame] at hlevel
    exact absurd hlevel (Nat.lt_irrefl _)

/-- Each call has a result. The induction is on the number of tokens that are left, and on the level where
no token was read. -/
theorem exists_returns (c : Call) : ∃ res, c.Returns res := by
  have hwf : WellFounded fun c' c : Call => c'.Under c := by
    refine Subrelation.wf ?_ (InvImage.wf (fun c : Call => (c.left, c.procedure.level))
      (Prod.lex Nat.lt_wfRel Nat.lt_wfRel).wf)
    rintro c' c (hlt | ⟨heq, hlevel⟩)
    · exact Prod.Lex.left _ _ hlt
    · exact Prod.lex_def.2 (.inr ⟨heq, hlevel⟩)
  induction c using hwf.induction with
  | _ c ih => exact exists_runs fun c' hc' => ih c' (under_of_calls hc')

/-- Each call has one result. -/
theorem existsUnique_returns (c : Call) : ∃! res, c.Returns res := by
  obtain ⟨res, hres⟩ := exists_returns c
  exact ⟨res, hres, fun res' hres' => hres'.unique hres⟩

end Call

end Bucket.Parser
