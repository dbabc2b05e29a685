/-
# Procedures for names, calls and their arguments

The procedures for operands without operators do as a parser does that goes from state to state. An operand
that was read may go on with a member or with arguments, and the arguments are expressions in brackets.
-/
import Bucket.Proofs.Descent.Operands

namespace Bucket.Parser

/-! ## Operands that may go on -/

/-- Where no parentheses follow, a name or a member is as good as its value. -/
theorem State.answer_pending_of_ne {r : Reader} (h : r.current.kind ≠ .symbol .openParenthesis)
    (p : Pending) (waiting : List Waiting) (context : Context) :
    (pending p waiting context).answer r = (pending (.whole p.value) waiting context).answer r := by
  have hstep : (pending p waiting context).step r.current =
      (pending (.whole p.value) waiting context).step r.current := by
    show stepPending p waiting context r.current = stepPending (.whole p.value) waiting context r.current
    unfold stepPending
    split
    case h_1 hk => exact absurd hk h
    case h_2 => rfl
    case h_3 => rfl
    case h_4 => rfl
  rw [answer_eq_feed fun _ => rfl, answer_eq_feed fun _ => rfl, hstep]
  rfl

/-- An operand that does not go on by itself is behind all operators in front of it. -/
theorem State.answer_pending {r : Reader} (hround : r.current.kind ≠ .symbol .openParenthesis)
    (hsquare : r.current.kind ≠ .symbol .openBracket) (hperiod : r.current.kind ≠ .symbol .period)
    (p : Pending) (waiting : List Waiting) (context : Context) :
    Behind 10 waiting context p.value r ((pending p waiting context).answer r) := by
  refine ⟨9, by decide, fun op _ => .inl (Nat.lt_succ_of_le op.level_le_nine), ?_⟩
  rw [← stepPending_eq_stepBehind p hround hsquare hperiod]
  exact answer_eq_feed fun _ => rfl

/-- Nothing else than an operand is read where no operator and no closing bracket may stand. -/
theorem stepOperand_of_ne {room : Room 10 r}
    (hname : ∀ name, r.current.kind ≠ .identifier name) (hliteral : ∀ v, r.current.kind ≠ .literal v)
    (hround : r.current.kind ≠ .symbol .openParenthesis) :
    stepOperand room.waiting room.context r.current = none := by
  unfold stepOperand
  split
  case h_1 name hk => exact absurd hk (hname name)
  case h_2 v hk => exact absurd hk (hliteral v)
  case h_3 hk => exact absurd hk hround
  case h_4 =>
    cases hop : PrefixOp.ofKind? r.current.kind with
    | none => exact room.not_closed
    | some op =>
        rcases room.no_operator (by decide) with hnone | hlevel
        · rw [hop] at hnone
          cases hnone
        · exact if_neg (Nat.not_le.2 hlevel)

/-! ## Brackets -/

/-- Round brackets are closed around nothing if they may be. -/
theorem CallPlace.closeEmpty_inside {before : List Expression} (p : CallPlace before) (t : Token) :
    closeEmpty t [] p.inside =
      if before = [] ∧ p.call.brackets = .round ∧ t.kind = .symbol .closeParenthesis then
        some (p.closed [] t.span)
      else none := by
  obtain ⟨⟨brackets, receiver, method, arguments⟩, waiting, context, rfl⟩ := p
  cases arguments with
  | nil => simp [closeEmpty, inside, closed]
  | cons e es => simp [closeEmpty, inside]

namespace Follows

variable {a : Answer} {r : Reader}

/-- Arguments are read up to the bracket behind them, which stands behind the last one. -/
theorem closedArguments (p : CallPlace []) (hclosed : closeEmpty r.current [] p.inside = none)
    (h : a = (State.operand [] p.inside).answer r) :
    Follows a (Script.closedArguments p.call.brackets) r fun read r' a =>
      a = (p.closed read.1 read.2).answer r' := by
  refine (call .argumentsRound [] ⟨p, hclosed⟩ h).bind ?_
  rintro arguments r₁ ⟨-, h₁⟩
  exact (expectKind h₁).bind fun stop r₂ h₂ => done h₂

/-- Between round brackets there may be nothing. -/
theorem arguments {brackets : Brackets} {mayBeEmpty : Bool} (p : CallPlace [])
    (hbrackets : p.call.brackets = brackets) (hempty : mayBeEmpty = true ↔ brackets = .round)
    (h : a = (State.operand [] p.inside).answer r) :
    Follows a (Script.arguments brackets mayBeEmpty) r fun read r' a =>
      a = (p.closed read.1 read.2).answer r' := by
  subst hbrackets
  have hclosed := p.closeEmpty_inside r.current
  cases mayBeEmpty with
  | false =>
      refine closedArguments p ?_ h
      rw [hclosed, if_neg fun hround => nomatch hempty.2 hround.2.1]
  | true =>
      have hround : p.call.brackets = .round := hempty.1 rfl
      refine branch (fun hk => ⟨p.closed [] r.current.span, ?_, fun r₁ h₁ => done h₁⟩)
        fun hk => closedArguments p ?_ h
      · have hk : r.current.kind = .symbol .closeParenthesis := by rw [hk, hround]; rfl
        rw [if_pos ⟨rfl, hround, hk⟩] at hclosed
        have hstep : (State.operand [] p.inside).step r.current = some (p.closed [] r.current.span) := by
          rw [← hclosed]
          simp only [State.step, stepOperand, hk, PrefixOp.ofKind?]
        rw [h, State.answer_eq_feed fun _ => rfl, hstep]
        rfl
      · rw [hround] at hk
        rw [hclosed, if_neg fun hclose => hk hclose.2.2]

/-- Behind an argument a comma leads to the next one. -/
theorem argumentsRound {before : List Expression} (p : CallPlace before)
    (hclosed : closeEmpty r.current [] p.inside = none)
    (h : a = (State.operand [] p.inside).answer r) :
    Follows a (Script.argumentsRound before) r fun arguments r' a =>
      r'.current.kind ≠ .symbol .comma ∧
        a = r'.pass (.symbol p.call.brackets.closer) (p.closed arguments) := by
  refine (call .expression () (Room.whole p.inside (Nat.le_refl 1) hclosed fun h => absurd h (by decide))
    h).bind fun e r₁ h₁ => ?_
  obtain ⟨⟨brackets, receiver, method, arguments⟩, waiting, context, rfl⟩ := p
  have h₁ := h₁.deliver rfl
  refine branch (fun hk => ?_) fun hk => done ⟨hk, ?_⟩
  · simp only [CallPlace.inside, Context.deliver, hk, if_true] at h₁
    refine ⟨_, h₁, fun r₂ h₂ => ?_⟩
    refine call .argumentsRound (arguments ++ [e])
      ⟨⟨⟨brackets, receiver, method, arguments ++ [e]⟩, waiting, context, rfl⟩, ?_⟩ h₂
    rw [CallPlace.closeEmpty_inside, if_neg fun hnil => by simp at hnil]
  · rw [Reader.pass, h₁]
    simp only [CallPlace.inside, Context.deliver, hk, if_false]
    rfl

/-! ## Operands -/

variable {waiting : List Waiting} {context : Context}

/-- Parentheses behind an operand are read up to where they are closed. -/
theorem roundArguments {p : Pending} (h : a = (State.pending p waiting context).answer r)
    (hk : r.current.kind = .symbol .openParenthesis) : ∃ s : State, a = r.goOn s ∧
      ∀ r', a = s.answer r' → Follows a (Script.perform .arguments (.round, true)) r'
        fun read r'' a => a = (State.pending (.whole
          ({ p.openCall with arguments := read.1 }.close read.2)) waiting context).answer r'' := by
  have hfeed := h.trans (State.answer_eq_feed fun _ => rfl)
  simp only [State.step, stepPending, hk] at hfeed
  refine ⟨_, hfeed, fun r₁ h₁ => ?_⟩
  have hround : p.openCall.brackets = .round ∧ p.openCall.arguments = [] := by
    cases p <;> exact ⟨rfl, rfl⟩
  exact call .arguments (.round, true)
    ⟨⟨p.openCall, waiting, context, hround.2⟩, hround.1, by simp⟩ h₁

/-- The arguments behind the name of a member are read, or the name is the end of the call. -/
theorem memberArguments {receiver : Expression} {name : String} {span : Span}
    (h : a = (State.pending (.member receiver name span) waiting context).answer r) :
    Follows a (Script.memberArguments span) r fun read r' a =>
      a = (State.pending (.whole (.call receiver name read.1 (receiver.span + read.2))) waiting
        context).answer r' := by
  refine branch (roundArguments h) fun hk => done ?_
  rw [h]
  exact State.answer_pending_of_ne hk _ _ _

/-- An operand goes on with members and arguments as long as there are any. -/
theorem postfixRound {value : Expression}
    (h : a = (State.pending (.whole value) waiting context).answer r) :
    Follows a (Script.postfixRound value) r (Behind 10 waiting context) := by
  have hfeed := h.trans (State.answer_eq_feed fun _ => rfl)
  refine branch (fun hk => ?_) fun hperiod => branch (fun hk => ?_) fun hround =>
    branch (fun hk => ?_) fun hsquare => done ?_
  · simp only [State.step, stepPending, hk] at hfeed
    refine ⟨_, hfeed, fun r₁ h₁ => ?_⟩
    refine (expectIdentifier (h₁.trans (State.answer_memberName _ _ _))).bind ?_
    rintro ⟨name, span⟩ r₂ h₂
    refine (memberArguments h₂).bind ?_
    rintro ⟨arguments, stop⟩ r₃ h₃
    exact call .postfixRound _ (waiting, context) h₃
  · obtain ⟨s, hs, hrest⟩ := roundArguments h hk
    refine ⟨s, hs, fun r₁ h₁ => (hrest r₁ h₁).bind ?_⟩
    rintro ⟨arguments, stop⟩ r₂ h₂
    exact call .postfixRound _ (waiting, context) h₂
  · simp only [State.step, stepPending, hk] at hfeed
    refine ⟨_, hfeed, fun r₁ h₁ => ?_⟩
    refine (call .arguments (.square, false) ⟨⟨_, waiting, context, rfl⟩, rfl, by simp⟩ h₁).bind ?_
    rintro ⟨arguments, stop⟩ r₂ h₂
    exact call .postfixRound _ (waiting, context) h₂
  · rw [h]
    exact State.answer_pending hround hsquare hperiod _ _ _

/-- A name is called on the object itself if there are arguments behind it. -/
theorem named {name : String} {span : Span}
    (h : a = (State.pending (.name name span) waiting context).answer r) :
    Follows a (Script.named name span) r fun e r' a =>
      a = (State.pending (.whole e) waiting context).answer r' := by
  refine branch (fun hk => ?_) fun hk => done ?_
  · obtain ⟨s, hs, hrest⟩ := roundArguments h hk
    refine ⟨s, hs, fun r₁ h₁ => (hrest r₁ h₁).bind ?_⟩
    rintro ⟨arguments, stop⟩ r₂ h₂
    exact done h₂
  · rw [h]
    exact State.answer_pending_of_ne hk _ _ _

/-- An operand begins with a name, a literal or a parenthesis. -/
theorem primaryExpr (room : Room 10 r) (h : a = room.state.answer r) :
    Follows a Script.primaryExpr r fun e r' a =>
      a = (State.pending (.whole e) room.waiting room.context).answer r' := by
  rw [room.answer_state] at h
  refine branch (fun hk => ?_) fun hround => ?_
  · simp only [stepOperand, hk] at h
    refine ⟨_, h, fun r₁ h₁ => ?_⟩
    refine (call .expression () (Room.whole (.group r.current.span room.waiting room.context)
      (Nat.le_refl 1) rfl fun h => absurd h (by decide)) h₁).bind fun inner r₂ h₂ => ?_
    have h₂ := (h₂.deliver rfl).trans (congrArg (r₂.feed · _) (match_closeParenthesis _ _))
    exact (expectKind h₂).bind fun closer r₃ h₃ => done h₃
  · refine current.bind ?_
    rintro _ _ ⟨rfl, rfl⟩
    split
    · rename_i name hk
      simp only [stepOperand, hk] at h
      exact (advance h).bind fun _ r₁ h₁ => named h₁
    · rename_i v hk
      simp only [stepOperand, hk] at h
      exact (advance h).bind fun _ r₁ h₁ => done h₁
    · rename_i hname hliteral
      rw [stepOperand_of_ne hname hliteral hround] at h
      exact expected h

end Follows

end Bucket.Parser
