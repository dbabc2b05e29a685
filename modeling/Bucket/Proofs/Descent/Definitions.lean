/-
# Procedures for definitions

The procedures for programs, classes, methods and fields do as a parser does that goes from state to state.
Behind the last line of a definition the file may end, and then the end of the file stands for that of the
line.
-/
import Bucket.Proofs.Descent.Statements

namespace Bucket.Parser

/-! ## Declarations -/

namespace State

variable {r : Reader}

theorem answer_declarations {e : Enclosing} (h : r.current.kind ≠ .symbol .endOfFile) :
    (declarations e).answer r = r.feed (stepDeclarations e r.current) e.expected :=
  answer_eq_feed fun hend => absurd (Token.Kind.eq_endOfFile hend) h

theorem answer_definitionLine {outer : Enclosing} (h : r.current.kind ≠ .symbol .endOfFile) :
    (definitionLine outer).answer r =
      r.feed (if r.current.kind = .symbol .newline then some (declarations outer) else none) .lineEnd :=
  (answer_eq_feed fun hend => absurd (Token.Kind.eq_endOfFile hend) h).trans
    (congrArg (r.feed · _) (match_newline _ _))

theorem answer_afterArguments (h : Header) : (afterArguments h).answer r =
    r.feed (stepHeader h r.current) (.symbol .newline) :=
  answer_eq_feed fun _ => rfl

end State

/-- Behind the last argument there is a parenthesis. -/
theorem stepArgument_of_ne {h : Header} {t : Token} (ht : t.kind ≠ .symbol .comma) :
    stepArgument h t =
      if t.kind = .symbol .closeParenthesis then some (.afterArguments h) else none := by
  unfold stepArgument
  split
  case h_1 => contradiction
  case h_2 hk => rw [hk, if_pos rfl]
  case h_3 hk => exact (if_neg hk).symm

/-- Behind the return type, or where there is none, the first line of a method ends. -/
theorem stepHeader_of_ne {h : Header} {t : Token} (ht : t.kind ≠ .symbol .colon) :
    stepHeader h t =
      if t.kind = .symbol .newline then some (.statements (.method h none [])) else none := by
  unfold stepHeader
  split
  case h_1 => contradiction
  case h_2 hk => rw [hk, if_pos rfl]
  case h_3 hk => exact (if_neg hk).symm

/-- Nothing stands between declarations but their first tokens, line ends and the end of the class. -/
theorem stepDeclarations_of_not_begins {e : Enclosing} {t : Token}
    (hbegins : ¬ BeginsDeclaration t.kind) (hline : t.kind ≠ .symbol .newline)
    (hclose : t.kind = .keyword .endKw → e.close t = none) : stepDeclarations e t = none := by
  unfold stepDeclarations
  split
  · contradiction
  · rename_i hk
    exact hclose hk
  · rename_i hk
    exact absurd (.inl hk) hbegins
  · rename_i hk
    exact absurd (.inr (.inl hk)) hbegins
  · rename_i name hk
    exact absurd (.inr (.inr ⟨name, hk⟩)) hbegins
  · rfl

namespace Follows

variable {a : Answer} {r : Reader}

/-- The line of a definition ends, or the file does. -/
theorem expectEndOfLine {outer : Enclosing} (h : a = (State.definitionLine outer).answer r) :
    Follows a Script.expectEndOfLine r fun _ r' a => a = (State.declarations outer).answer r' := by
  refine (Script.ensures_bind _ _).2 (Script.ensures_accept.2 ⟨fun hk => ?_, fun hk => ?_⟩)
  · refine Script.ensures_advance.1 (advance (h.trans ?_))
    by_cases hend : r.current.kind = .symbol .endOfFile
    · -- The end of the file stays where it is, and the parser is behind the line there.
      have hend : r.current.isEndOfFile = true := congrArg Token.Kind.isEndOfFile hend
      rw [State.answer_definitionLine_of_isEndOfFile hend, Reader.goOn, Reader.next_of_isEndOfFile hend]
      rfl
    · have hline : r.current.kind = .symbol .newline := by simpa [hend] using hk
      rw [State.answer_definitionLine hend, if_pos hline]
      rfl
  · have hne : r.current.kind ≠ .symbol .newline ∧ r.current.kind ≠ .symbol .endOfFile := by
      simpa using hk
    rw [State.answer_definitionLine hne.2, if_neg hne.1] at h
    exact h

/-! ## Programs -/

theorem program (h : a = State.initial.answer r) :
    Follows a Script.program r fun m _ a => a = .ok m := by
  refine (call .programRound [] () h).bind ?_
  rintro ds r₁ ⟨hend, h₁⟩
  refine current.bind ?_
  rintro _ _ ⟨rfl, rfl⟩
  refine done (h₁.trans ?_)
  obtain ⟨fileEnd, rfl⟩ := Reader.exists_eq_ended hend
  rfl

theorem programRound {before : List Declaration}
    (h : a = (State.declarations (.module before)).answer r) :
    Follows a (Script.programRound before) r fun ds r' a =>
      r'.current.isEndOfFile = true ∧ a = (State.declarations (.module ds)).answer r' := by
  refine current.bind ?_
  rintro _ _ ⟨rfl, rfl⟩
  split
  · rename_i hend
    exact done ⟨hend, h⟩
  rename_i hend
  have hend : r.current.kind ≠ .symbol .endOfFile := fun hk => hend (congrArg Token.Kind.isEndOfFile hk)
  have hfeed := h.trans (State.answer_declarations hend)
  refine branch (fun hk => ?_) fun hline => ?_
  · simp only [stepDeclarations, hk] at hfeed
    exact ⟨_, hfeed, fun r₁ h₁ => call .programRound before () h₁⟩
  · refine (call .globalStatement () (.module before) h).bind fun found r₁ h₁ => ?_
    cases found with
    | some d => exact call .programRound (before ++ [d]) () h₁
    | none =>
        obtain ⟨rfl, hbegins⟩ := h₁
        rw [stepDeclarations_of_not_begins hbegins hline fun _ => rfl] at hfeed
        exact expected hfeed

theorem globalStatement (e : Enclosing) (h : a = (State.declarations e).answer r) :
    Follows a Script.globalStatement r ((Agreement.declaration id BeginsDeclaration r).after e) := by
  refine (call .classDef () e h).bind fun found r₁ h₁ => ?_
  cases found with
  | some c => exact done h₁
  | none =>
    obtain ⟨rfl, hclass⟩ := h₁
    refine (call .methodDef () e h).bind fun found r₁ h₁ => ?_
    cases found with
    | some m => exact done h₁
    | none =>
      obtain ⟨rfl, hmethod⟩ := h₁
      refine (call .fieldDecl () e h).bind fun found r₁ h₁ => ?_
      cases found with
      | some f => exact done h₁
      | none =>
          obtain ⟨rfl, hname⟩ := h₁
          refine done ⟨rfl, ?_⟩
          rintro (h | h | h)
          · exact hclass h
          · exact hmethod h
          · exact hname h

/-! ## Classes and fields -/

theorem classDef (e : Enclosing) (h : a = (State.declarations e).answer r) :
    Follows a Script.classDef r
      ((Agreement.declaration Class.toDeclaration (· = .keyword .classKw) r).after e) := by
  refine branch (fun hk => ?_) fun hclass => done ⟨rfl, hclass⟩
  rw [State.answer_declarations (by simp [hk])] at h
  simp only [stepDeclarations, hk] at h
  refine ⟨_, h, fun r₁ h₁ => ?_⟩
  refine (expectIdentifier (h₁.trans (State.answer_className _ _))).bind ?_
  rintro ⟨name, span⟩ r₂ h₂
  refine (expectKind (h₂.trans (State.answer_classLine _ _ _))).bind fun _ r₃ h₃ => ?_
  refine (call .classRound [] (r.current.span, name, e) h₃).bind ?_
  rintro ⟨body, closer⟩ r₄ h₄
  exact (expectEndOfLine h₄).bind fun _ r₅ h₅ => done h₅

theorem classRound {before : List Declaration} (opener : Span) (name : String) (outer : Enclosing)
    (h : a = (State.declarations (.inClass opener name before outer)).answer r) :
    Follows a (Script.classRound before) r fun read r' a =>
      a = (State.definitionLine (outer.add (.classDef name read.1 (opener + read.2)))).answer r' := by
  have hfeed := h.trans (State.answer_eq_feed fun _ => rfl)
  refine branch (fun hk => ?_) fun hclose => branch (fun hk => ?_) fun hline => ?_
  · simp only [State.step, stepDeclarations, hk] at hfeed
    exact ⟨_, hfeed, fun r₁ h₁ => done h₁⟩
  · simp only [State.step, stepDeclarations, hk] at hfeed
    exact ⟨_, hfeed, fun r₁ h₁ => call .classRound before (opener, name, outer) h₁⟩
  · refine (call .globalStatement () (.inClass opener name before outer) h).bind fun found r₁ h₁ => ?_
    cases found with
    | some d => exact call .classRound (before ++ [d]) (opener, name, outer) h₁
    | none =>
        obtain ⟨rfl, hbegins⟩ := h₁
        simp only [State.step] at hfeed
        rw [stepDeclarations_of_not_begins hbegins hline (absurd · hclose)] at hfeed
        exact expected hfeed

theorem fieldDecl (e : Enclosing) (h : a = (State.declarations e).answer r) :
    Follows a Script.fieldDecl r
      ((Agreement.declaration .field (fun k => ∃ name, k = .identifier name) r).after e) := by
  refine identifier (fun name hk => ?_) fun hname => done ⟨rfl, fun h => h.elim hname⟩
  rw [State.answer_declarations (by simp [hk])] at h
  simp only [stepDeclarations, hk] at h
  refine ⟨_, h, fun r₁ h₁ => ?_⟩
  refine (expectKind (h₁.trans (State.answer_fieldColon _ _ _))).bind fun _ r₂ h₂ => ?_
  refine (lineExpression h₂ rfl fun _ _ => match_newline _ _).bind fun type r₃ h₃ => ?_
  exact (expectKind h₃).bind fun _ r₄ h₄ => done h₄

/-! ## Methods -/

/-- An operand without operators in the first line of a method is handed to what it is for. -/
theorem headerOperand {s : Slot} (h : a = (State.operand [] (.slot s)).answer r) (hlevel : s.level = 10) :
    Follows a (Script.perform .postfixExpr ()) r fun e r' a =>
      a = r'.feed (s.deliver e r'.current) (Context.slot s).expected := by
  refine (call .postfixExpr () (Room.whole (.slot s) (Nat.le_of_eq hlevel) rfl fun _ => ?_) h).weaken
    fun e r₁ h₁ => h₁.deliver hlevel
  rw [show (Context.slot s).level = 10 from hlevel]
  decide

theorem argument (header : Header)
    (h : a = r.passName .argumentName fun name span => .argumentColon name span header) :
    Follows a Script.argument r fun argument r' a =>
      a = r'.feed (stepArgument (header.add argument) r'.current) (.symbol .closeParenthesis) := by
  refine (expectIdentifier h).bind ?_
  rintro ⟨name, span⟩ r₁ h₁
  refine (expectKind (h₁.trans (State.answer_argumentColon _ _ _))).bind fun _ r₂ h₂ => ?_
  exact (headerOperand h₂ rfl).bind fun type r₃ h₃ => done h₃

theorem argumentRound {before : List Argument} (header : Header) (hbefore : header.arguments = before)
    (h : a = r.passName .argumentName fun name span => .argumentColon name span header) :
    Follows a (Script.argumentRound before) r fun arguments r' a =>
      r'.current.kind ≠ .symbol .comma ∧ a = r'.pass (.symbol .closeParenthesis) fun _ =>
        .afterArguments { header with arguments := arguments } := by
  subst hbefore
  refine (call .argument () header h).bind fun argument r₁ h₁ => ?_
  refine branch (fun hk => ?_) fun hcomma => done ⟨hcomma, ?_⟩
  · simp only [stepArgument, hk] at h₁
    exact ⟨_, h₁, fun r₂ h₂ => call .argumentRound _ ⟨header.add argument, rfl⟩
      (h₂.trans (State.answer_argumentName _))⟩
  · rw [h₁, stepArgument_of_ne hcomma]
    rfl

theorem parameters (header : Header) (harguments : header.arguments = [])
    (h : a = (State.afterMethodName header).answer r) :
    Follows a Script.parameters r fun arguments r' a =>
      a = r'.feed (stepHeader { header with arguments := arguments } r'.current)
        (.symbol .newline) := by
  have hfeed := h.trans (State.answer_eq_feed fun _ => rfl)
  have hheader : { header with arguments := [] } = header := by rw [← harguments]
  refine branch (fun hk => ?_) fun hround => done ?_
  · simp only [State.step, hk] at hfeed
    refine ⟨_, hfeed, fun r₁ h₁ => ?_⟩
    have hfeed := h₁.trans (State.answer_eq_feed fun _ => rfl)
    refine branch (fun hk => ?_) fun hclose => ?_
    · simp only [State.step, hk] at hfeed
      refine ⟨_, hfeed, fun r₂ h₂ => done ?_⟩
      rw [hheader]
      exact h₂.trans (State.answer_afterArguments header)
    · have hname : (State.firstArgument header).step r₁.current =
          stepArgumentName header r₁.current := by
        unfold State.step
        dsimp only
        split
        · contradiction
        · rfl
      rw [hname] at hfeed
      refine (call .argumentRound [] ⟨header, harguments⟩ hfeed).bind ?_
      rintro arguments r₂ ⟨-, h₂⟩
      exact (expectKind h₂).bind fun _ r₃ h₃ => done (h₃.trans (State.answer_afterArguments _))
  · have hstep : (State.afterMethodName header).step r.current = stepHeader header r.current := by
      unfold State.step
      dsimp only
      split
      · contradiction
      · rfl
    rw [hstep] at hfeed
    rw [hheader]
    exact hfeed

theorem returnType (header : Header)
    (h : a = r.feed (stepHeader header r.current) (.symbol .newline)) :
    Follows a Script.returnType r fun returns r' a =>
      a = r'.pass (.symbol .newline) fun _ => .statements (.method header returns []) := by
  refine branch (fun hk => ?_) fun hcolon => done ?_
  · simp only [stepHeader, hk] at h
    refine ⟨_, h, fun r₁ h₁ => ?_⟩
    refine (headerOperand h₁ rfl).bind fun type r₂ h₂ => done ?_
    exact h₂.trans (congrArg (r₂.feed · _) (match_newline _ _))
  · rw [h, stepHeader_of_ne hcolon]
    rfl

theorem methodDef (e : Enclosing) (h : a = (State.declarations e).answer r) :
    Follows a Script.methodDef r
      ((Agreement.declaration .method (· = .keyword .methodKw) r).after e) := by
  refine branch (fun hk => ?_) fun hmethod => done ⟨rfl, hmethod⟩
  rw [State.answer_declarations (by simp [hk])] at h
  simp only [stepDeclarations, hk] at h
  refine ⟨_, h, fun r₁ h₁ => ?_⟩
  refine (expectIdentifier (h₁.trans (State.answer_methodName _ _))).bind ?_
  rintro ⟨name, span⟩ r₂ h₂
  refine (parameters ⟨r.current.span, name, [], e⟩ rfl h₂).bind fun arguments r₃ h₃ => ?_
  refine (returnType _ h₃).bind fun returns r₄ h₄ => ?_
  refine (expectKind h₄).bind fun _ r₅ h₅ => ?_
  refine (call .block () _ h₅).bind ?_
  rintro body r₆ ⟨hends, h₆⟩
  rw [Block.addAll_method, List.nil_append,
    State.answer_statements_of_endsBlock hends (fun _ => rfl) fun _ => rfl] at h₆
  refine (expectKind h₆).bind fun closer r₇ h₇ => ?_
  exact (expectEndOfLine h₇).bind fun _ r₈ h₈ => done h₈

end Follows

end Bucket.Parser
