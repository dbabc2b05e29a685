/-
# Places are exact

A parser accounts for all tokens that it has read, one after the other (`State.accounts_step`). So in a
program that is parsed every part has the place of the tokens that were read for it, and parts lie in
each other like brackets do (`Source.parse_exact`).
-/
import Bucket.Proofs.Parsing.Run
import Bucket.Proofs.Spans.Stack

namespace Bucket

namespace Parser

variable {t : Token} {ts : List Token} {s' : State} {front items own : List Item}

/-- A token is put behind what is held. -/
theorem State.Accounts.of_shift {s : State} (h : s.Holds (items ++ [.token t]))
    (hexact : Exact items ts) : s.Accounts (ts ++ [t]) := ⟨_, h, hexact.shift t⟩

/-! ## The next token -/

section

variable {k : Token.Kind} {s : State}

theorem eq_of_newline
    (h : (match k with | .symbol .newline => some s | _ => none) = some s') :
    k = .symbol .newline ∧ s = s' := by
  split at h
  · exact ⟨rfl, Option.some.inj h⟩
  · cases h

theorem eq_of_colon (h : (match k with | .symbol .colon => some s | _ => none) = some s') :
    k = .symbol .colon ∧ s = s' := by
  split at h
  · exact ⟨rfl, Option.some.inj h⟩
  · cases h

theorem exists_of_identifier {f : String → State}
    (h : (match k with | .identifier n => some (f n) | _ => none) = some s') :
    ∃ n, k = .identifier n ∧ f n = s' := by
  split at h
  · exact ⟨_, rfl, Option.some.inj h⟩
  · cases h

end

/-! ## Operators -/

namespace WaitingHolds

variable {w : Waiting} {waiting : List Waiting} {e : Expression}

/-- The innermost operator takes its operand. -/
theorem exists_apply (h : WaitingHolds (w :: waiting) items)
    (hexact : Exact (front ++ items ++ [.part (.ofExpression e)]) ts)
    (hts : InOrder (ts.map (·.span))) :
    ∃ items', WaitingHolds waiting items' ∧
      Exact (front ++ items' ++ [.part (.ofExpression (w.apply e))]) ts := by
  cases h with
  | @prefixOp op t _ items hwaiting hop =>
      have hlast : Exact (front ++ items ++ [.token t, .part (.ofExpression e)]) ts := by
        simpa using hexact
      exact ⟨items, hwaiting, hlast.reduce hts (.prefixOp hop) ⟨_, rfl, _, rfl, rfl⟩⟩
  | @infixOp op left t _ items hwaiting hop =>
      have hlast : Exact (front ++ items ++
          [.part (.ofExpression left), .token t, .part (.ofExpression e)]) ts := by
        simpa using hexact
      refine ⟨items, hwaiting, ?_⟩
      cases op with
      | assign => exact hlast.reduce hts (.assignment hop) ⟨_, rfl, _, rfl, rfl⟩
      | binary op => exact hlast.reduce hts (.binary hop) ⟨_, rfl, _, rfl, rfl⟩

/-- All operators take their operands. -/
theorem exact_applyAll (h : WaitingHolds waiting items)
    (hexact : Exact (front ++ items ++ [.part (.ofExpression e)]) ts)
    (hts : InOrder (ts.map (·.span))) :
    Exact (front ++ [.part (.ofExpression (applyAll e waiting))]) ts := by
  induction waiting generalizing e items with
  | nil =>
      cases h
      rwa [List.append_nil] at hexact
  | cons w waiting ih =>
      obtain ⟨items', hwaiting, hexact'⟩ := h.exists_apply hexact hts
      exact ih hwaiting hexact'

/-- The operators that bind tighter take their operands, and the others still wait. -/
theorem exists_applyTighter (h : WaitingHolds waiting items)
    (hexact : Exact (front ++ items ++ [.part (.ofExpression e)]) ts)
    (hts : InOrder (ts.map (·.span))) (level follow : Nat) :
    ∃ items', WaitingHolds (applyTighter level e follow waiting).2.1 items' ∧
      Exact (front ++ items' ++
        [.part (.ofExpression (applyTighter level e follow waiting).1)]) ts := by
  induction waiting generalizing e items follow with
  | nil => exact ⟨items, h, hexact⟩
  | cons w waiting ih =>
      rw [applyTighter]
      split
      · obtain ⟨items', hwaiting, hexact'⟩ := h.exists_apply hexact hts
        exact ih hwaiting hexact' _
      · exact ⟨items, h, hexact⟩

end WaitingHolds

/-! ## Operands -/

namespace Pending.Holds

variable {p : Pending}

/-- An operand that does not go on is a part. -/
theorem exact_value (h : p.Holds own) (hexact : Exact (front ++ own) ts)
    (hts : InOrder (ts.map (·.span))) : Exact (front ++ [.part (.ofExpression p.value)]) ts := by
  cases h with
  | name hname =>
      exact hexact.reduce hts (.identifier hname) ⟨_, rfl, _, rfl, (Span.add_self _).symm⟩
  | member hperiod hname => exact hexact.reduce hts (.member hperiod hname) ⟨_, rfl, _, rfl, rfl⟩
  | whole e => exact hexact

/-- An operand may turn out to be what stands in front of parentheses. -/
theorem exists_callee (h : p.Holds own) (hexact : Exact (front ++ own) ts) :
    ∃ callee, Callee p.openCall.brackets p.openCall.receiver p.openCall.method callee ∧
      p.openCall.brackets = .round ∧ Listed .comma (p.openCall.arguments.map .ofExpression) [] ∧
      Exact (front ++ callee) ts := by
  cases h with
  | name hname => exact ⟨_, .name hname, rfl, .nil, hexact.called_of_token⟩
  | member hperiod hname => exact ⟨_, .member hperiod hname, rfl, .nil, hexact⟩
  | whole e => exact ⟨_, .value e, rfl, .nil, hexact⟩

end Pending.Holds

/-- Behind its closing bracket a call is a part. -/
theorem OpenCall.exact_close {call : OpenCall} {opener closer : Token} {callee arguments : List Item}
    (hexact : Exact (front ++ (callee ++ .token opener :: arguments ++ [.token closer])) ts)
    (hts : InOrder (ts.map (·.span)))
    (hcallee : Callee call.brackets call.receiver call.method callee)
    (hopener : opener.kind = .symbol call.brackets.opener)
    (harguments : Listed .comma (call.arguments.map .ofExpression) arguments)
    (hcloser : closer.kind = .symbol call.brackets.closer) :
    Exact (front ++ [.part (.ofExpression (call.close closer.span))]) ts := by
  refine hexact.reduce hts (.call hcallee hopener harguments hcloser) ?_
  obtain ⟨brackets, receiver, method, values⟩ := call
  cases hcallee <;> exact ⟨_, rfl, _, List.getLast?_concat, rfl⟩

/-! ## Complete expressions -/

/-- A complete expression is handed to what it is for. -/
theorem Slot.Holds.accounts_deliver {slot : Slot} {e : Expression} (h : slot.Holds front)
    (hexact : Exact (front ++ [.part (.ofExpression e)]) ts) (hts : InOrder (ts.map (·.span)))
    (hdeliver : slot.deliver e t = some s') : s'.Accounts (ts ++ [t]) := by
  cases h with
  | @field outer n name colon front houter hname hcolon =>
      obtain ⟨hnewline, rfl⟩ := eq_of_newline hdeliver
      rw [List.append_assoc] at hexact
      have hfield := hexact.reduce hts (.field hname hcolon) ⟨_, rfl, _, rfl, rfl⟩
      exact .of_shift (.declarations ((houter.add _).newline hnewline)) hfield
  | @argument header n name colon front hheader hname hcolon =>
      rw [List.append_assoc] at hexact
      have hargument := hexact.reduce hts (.argument hname hcolon) ⟨_, rfl, _, rfl, rfl⟩
      have hall := hheader.add ⟨n, e, name.span + e.span⟩
      simp only [Slot.deliver] at hdeliver
      split at hdeliver
      · rename_i hcomma
        obtain rfl := Option.some.inj hdeliver
        exact .of_shift (.argumentName (hall.comma hcomma)) hargument
      · rename_i hcloser
        obtain rfl := Option.some.inj hdeliver
        cases hall with
        | mk hopener harguments hh =>
            exact .of_shift (.afterArguments (.present hopener harguments hcloser)
              (hh.append [.token t])) hargument
      · cases hdeliver
  | @returns header colon arguments front harguments hheader hcolon =>
      obtain ⟨hnewline, rfl⟩ := eq_of_newline hdeliver
      refine .of_shift (.statements (.method harguments (.present e hcolon) hnewline .nil ?_)) hexact
      simpa using hheader.append [.token colon, .part (.ofExpression e), .token t]
  | @ifCondition block opener front hblock hopener =>
      obtain ⟨hnewline, rfl⟩ := eq_of_newline hdeliver
      refine .of_shift (.statements ?_) hexact
      simpa using Block.Holds.nested hblock (.thenPart hopener hnewline) .nil
  | elifCondition hblock hconditions hopener =>
      obtain ⟨hnewline, rfl⟩ := eq_of_newline hdeliver
      refine .of_shift (.statements ?_) hexact
      simpa using Block.Holds.nested hblock (.elifPart hconditions hopener hnewline) .nil
  | @ret block opener front hblock hopener =>
      obtain ⟨hnewline, rfl⟩ := eq_of_newline hdeliver
      rw [List.append_assoc] at hexact
      have hret := hexact.reduce hts (.retValue hopener) ⟨_, rfl, _, rfl, rfl⟩
      exact .of_shift (.statements ((hblock.add _).newline hnewline)) hret
  | statement hblock =>
      obtain ⟨hnewline, rfl⟩ := eq_of_newline hdeliver
      have hstatement := hexact.reduce hts .expression ⟨_, rfl, _, rfl, (Span.add_self _).symm⟩
      exact .of_shift (.statements ((hblock.add _).newline hnewline)) hstatement

namespace Context.Holds

variable {context : Context} {waiting : List Waiting} {e : Expression}

/-- A complete expression is handed to its context. -/
theorem accounts_deliver (h : context.Holds front)
    (hexact : Exact (front ++ [.part (.ofExpression e)]) ts)
    (hts : InOrder ((ts ++ [t]).map (·.span))) (hdeliver : context.deliver e t = some s') :
    s'.Accounts (ts ++ [t]) := by
  have hbefore := hts.of_map_append_left
  cases h with
  | slot hslot => exact hslot.accounts_deliver hexact hbefore hdeliver
  | @group outer outerWaiting opener front items houter hwaiting hopener =>
      simp only [deliver] at hdeliver
      split at hdeliver
      · rename_i hcloser
        obtain rfl := Option.some.inj hdeliver
        -- What the expression in the parentheses is made of belongs to the one with parentheses.
        obtain ⟨own, hmade, hown⟩ := hexact.exists_madeOf
        have hall : Exact (front ++ items ++ (.token opener :: own ++ [.token t])) (ts ++ [t]) := by
          simpa using hown.shift t
        have hgroup := hall.reduce hts (.group hopener hmade hcloser)
          ⟨_, rfl, _, List.getLast?_concat, e.span_withSpan _⟩
        exact ⟨_, .pending houter hwaiting (.whole _), hgroup⟩
      · cases hdeliver
  | @arguments call outer outerWaiting opener front items callee arguments houter hwaiting hcallee
      hopener harguments =>
      have hadded : Listed .comma ((call.add e).arguments.map .ofExpression)
          (arguments ++ [.part (.ofExpression e)]) := harguments.add e
      simp only [deliver] at hdeliver
      split at hdeliver
      · rename_i hcomma
        obtain rfl := Option.some.inj hdeliver
        have hcontext : (Context.arguments (call.add e) outerWaiting outer).Holds _ :=
          .arguments houter hwaiting hcallee hopener (hadded.separator hcomma)
        refine .of_shift ?_ hexact
        simpa using State.Holds.operand hcontext .nil
      · split at hdeliver
        · rename_i hcloser
          obtain rfl := Option.some.inj hdeliver
          have hall : Exact (front ++ items ++ (callee ++ .token opener ::
              (arguments ++ [.part (.ofExpression e)]) ++ [.token t])) (ts ++ [t]) := by
            simpa using hexact.shift t
          have hcall := (call.add e).exact_close hall hts hcallee hopener hadded hcloser
          exact ⟨_, .pending houter hwaiting (.whole _), hcall⟩
        · cases hdeliver

/-- Round brackets may hold nothing. -/
theorem accounts_closeEmpty (h : context.Holds front) (hwaiting : WaitingHolds waiting items)
    (hexact : Exact (front ++ items) ts) (hts : InOrder ((ts ++ [t]).map (·.span)))
    (hclose : closeEmpty t waiting context = some s') : s'.Accounts (ts ++ [t]) := by
  cases h with
  | slot hslot => cases hclose
  | group houter hwaiting hopener => cases hclose
  | @arguments call outer outerWaiting opener front own callee arguments houter houterWaiting hcallee
      hopener harguments =>
      simp only [closeEmpty] at hclose
      split at hclose
      · rename_i hempty
        obtain ⟨hnone, -, hround, hcloser⟩ := hempty
        obtain rfl := Option.some.inj hclose
        obtain rfl := List.isEmpty_iff.1 hnone
        cases hwaiting
        have hall : Exact (front ++ own ++ (callee ++ .token opener :: arguments ++ [.token t]))
            (ts ++ [t]) := by
          simpa using hexact.shift t
        have hcall := call.exact_close hall hts hcallee hopener harguments (hround ▸ hcloser)
        exact ⟨_, .pending houter houterWaiting (.whole _), hcall⟩
      · cases hclose

/-- Reading goes on where an operand begins. -/
theorem accounts_stepOperand (h : context.Holds front) (hwaiting : WaitingHolds waiting items)
    (hexact : Exact (front ++ items) ts) (hts : InOrder ((ts ++ [t]).map (·.span)))
    (hstep : stepOperand waiting context t = some s') : s'.Accounts (ts ++ [t]) := by
  unfold stepOperand at hstep
  split at hstep
  · rename_i n hname
    obtain rfl := Option.some.inj hstep
    exact .of_shift (.pending h hwaiting (.name hname)) hexact
  · rename_i v hvalue
    obtain rfl := Option.some.inj hstep
    have hliteral := (hexact.shift t).reduce hts (.literal hvalue)
      ⟨_, rfl, _, rfl, (Span.add_self _).symm⟩
    exact ⟨_, .pending h hwaiting (.whole _), hliteral⟩
  · rename_i hopener
    obtain rfl := Option.some.inj hstep
    refine .of_shift ?_ hexact
    simpa using State.Holds.operand (.group h hwaiting hopener) .nil
  · split at hstep
    · rename_i op hop
      split at hstep
      · obtain rfl := Option.some.inj hstep
        refine .of_shift ?_ hexact
        rw [List.append_assoc]
        exact .operand h (.prefixOp hwaiting hop)
      · cases hstep
    · exact h.accounts_closeEmpty hwaiting hexact hts hstep

/-- Reading goes on behind an operand with an operator. -/
theorem accounts_stepInfix {op : InfixOp} (h : context.Holds front)
    (hwaiting : WaitingHolds waiting items)
    (hexact : Exact (front ++ items ++ [.part (.ofExpression e)]) ts)
    (hts : InOrder (ts.map (·.span))) (hop : InfixOp.ofKind? t.kind = some op)
    (hstep : stepInfix op e waiting context = some s') : s'.Accounts (ts ++ [t]) := by
  obtain ⟨items', hwaiting', hexact'⟩ := hwaiting.exists_applyTighter hexact hts op.level 9
  simp only [stepInfix] at hstep
  split at hstep
  · obtain rfl := Option.some.inj hstep
    refine .of_shift ?_ hexact'
    simpa using State.Holds.operand h (.infixOp hwaiting' hop)
  · cases hstep

/-- Reading goes on behind an operand. -/
theorem accounts_stepPending {p : Pending} (h : context.Holds front)
    (hwaiting : WaitingHolds waiting items) (hp : p.Holds own)
    (hexact : Exact (front ++ items ++ own) ts) (hts : InOrder ((ts ++ [t]).map (·.span)))
    (hstep : stepPending p waiting context t = some s') : s'.Accounts (ts ++ [t]) := by
  have hbefore := hts.of_map_append_left
  have hvalue := hp.exact_value hexact hbefore
  unfold stepPending at hstep
  split at hstep
  · rename_i hopener
    obtain rfl := Option.some.inj hstep
    obtain ⟨callee, hcallee, hround, hnone, hexact'⟩ := hp.exists_callee hexact
    have hcontext : (Context.arguments p.openCall waiting context).Holds _ :=
      .arguments h hwaiting hcallee (by rw [hround]; exact hopener) hnone
    refine .of_shift ?_ hexact'
    simpa using State.Holds.operand hcontext .nil
  · rename_i hopener
    obtain rfl := Option.some.inj hstep
    have hcontext : (Context.arguments p.openIndex waiting context).Holds _ :=
      .arguments h hwaiting (.index p.value) hopener .nil
    refine .of_shift ?_ hvalue
    simpa using State.Holds.operand hcontext .nil
  · rename_i hperiod
    obtain rfl := Option.some.inj hstep
    refine .of_shift ?_ hvalue
    simpa using State.Holds.memberName h hwaiting hperiod
  · split at hstep
    · rename_i op hop
      exact h.accounts_stepInfix hwaiting hvalue hbefore hop hstep
    · exact h.accounts_deliver (hwaiting.exact_applyAll hvalue hbefore) hts hstep

end Context.Holds

/-! ## Statements -/

namespace Opened.Holds

variable {opener : Span} {condition current : Expression} {body done : List Statement}
  {alternatives : List (Expression × List Statement)} {opening : List Item}

theorem conditions_thenPart (h : (Opened.thenPart opener condition).Holds opening)
    (hdone : OnLines (done.map .ofStatement) items) :
    Conditions opener condition done [] (opening ++ items) := by
  cases h with
  | thenPart hopener hnewline => exact .first hopener rfl hnewline hdone

theorem conditions_elifPart
    (h : (Opened.elifPart opener condition body alternatives current).Holds opening)
    (hdone : OnLines (done.map .ofStatement) items) :
    Conditions opener condition body (alternatives ++ [(current, done)]) (opening ++ items) := by
  cases h with
  | elifPart hconditions hopener hnewline =>
      rw [List.append_assoc]
      exact .further hconditions hopener hnewline hdone

end Opened.Holds

/-- At its `end` a conditional is a part. -/
theorem exact_conditional {opener : Span} {condition : Expression} {body otherwise : List Statement}
    {alternatives : List (Expression × List Statement)} {conditions : List Item}
    (hexact : Exact (front ++ (conditions ++ items ++ [.token t])) ts)
    (hts : InOrder (ts.map (·.span)))
    (hconditions : Conditions opener condition body alternatives conditions)
    (hotherwise : Otherwise otherwise items) (ht : t.kind = .keyword .endKw) :
    Exact (front ++ [.part (.ofStatement
      (.conditional condition body alternatives otherwise (opener + t.span)))]) ts := by
  obtain ⟨i, rest, hhead, hspan⟩ := hconditions.exists_head
  refine hexact.reduce hts (.conditional hconditions hotherwise ht)
    ⟨i, ?_, _, List.getLast?_concat, ?_⟩
  · rw [hhead]
    rfl
  · rw [hspan]
    rfl

namespace Block.Holds

variable {b : Block}

/-- A block is closed by its `end`. -/
theorem accounts_close (h : b.Holds items) (hexact : Exact items ts)
    (hts : InOrder ((ts ++ [t]).map (·.span))) (ht : t.kind = .keyword .endKw) :
    (b.close t).Accounts (ts ++ [t]) := by
  have hall := hexact.shift t
  cases h with
  | @method header type done newline _ _ _ _ harguments hreturns hnewline hdone hheader =>
      let m : Method := ⟨header.name, header.arguments, type, done, header.opener + t.span⟩
      cases hheader with
      | mk houter hopener hspan hname =>
          rw [List.append_assoc] at hall
          have hmethod := hall.reduce hts
            (.method (m := m) hopener hname harguments hreturns hnewline hdone ht)
            ⟨_, rfl, _, List.getLast?_concat, congrArg (· + t.span) hspan⟩
          exact ⟨_, .definitionLine (houter.add _), hmethod⟩
  | @nested opened done outer front opening items houter hopened hdone =>
      cases opened with
      | thenPart opener condition =>
          have hconditions := hopened.conditions_thenPart hdone
          have hend := exact_conditional (by simpa using hall) hts hconditions .absent ht
          exact ⟨_, .statements (houter.add _), hend⟩
      | elifPart opener condition body alternatives current =>
          have hconditions := hopened.conditions_elifPart hdone
          have hend := exact_conditional (by simpa using hall) hts hconditions .absent ht
          exact ⟨_, .statements (houter.add _), hend⟩
      | elsePart opener condition body alternatives =>
          cases hopened with
          | elsePart hconditions helse hnewline =>
              have hend := exact_conditional (by simpa using hall) hts hconditions
                (.present helse hnewline hdone) ht
              exact ⟨_, .statements (houter.add _), hend⟩
      | loop opener =>
          cases hopened with
          | loop hopener hnewline =>
              rw [List.append_assoc] at hall
              have hloop := hall.reduce hts (.loop hopener hnewline hdone ht)
                ⟨_, rfl, _, List.getLast?_concat, rfl⟩
              exact ⟨_, .statementLine fun u hu => (houter.add _).newline hu, hloop⟩

/-- A conditional goes on with a further condition. -/
theorem accounts_elif (h : b.Holds items) (hexact : Exact items ts) (ht : t.kind = .keyword .elifKw)
    (helif : b.elif = some s') : s'.Accounts (ts ++ [t]) := by
  cases h with
  | method _ _ _ _ _ => cases helif
  | @nested opened done outer front opening items houter hopened hdone =>
      cases opened with
      | thenPart opener condition =>
          obtain rfl := Option.some.inj helif
          refine .of_shift ?_ hexact
          simpa using State.Holds.operand
            (.slot (.elifCondition houter (hopened.conditions_thenPart hdone) ht)) .nil
      | elifPart opener condition body alternatives current =>
          obtain rfl := Option.some.inj helif
          refine .of_shift ?_ hexact
          simpa using State.Holds.operand
            (.slot (.elifCondition houter (hopened.conditions_elifPart hdone) ht)) .nil
      | elsePart opener condition body alternatives => cases helif
      | loop opener => cases helif

/-- A conditional goes on with what is done when no condition holds. -/
theorem accounts_otherwise (h : b.Holds items) (hexact : Exact items ts)
    (ht : t.kind = .keyword .elseKw) (helse : b.otherwise = some s') : s'.Accounts (ts ++ [t]) := by
  cases h with
  | method _ _ _ _ _ => cases helse
  | @nested opened done outer front opening items houter hopened hdone =>
      cases opened with
      | thenPart opener condition =>
          obtain rfl := Option.some.inj helse
          refine .of_shift (.statementLine fun u hu => ?_) hexact
          simpa using Block.Holds.nested houter
            (.elsePart (hopened.conditions_thenPart hdone) ht hu) .nil
      | elifPart opener condition body alternatives current =>
          obtain rfl := Option.some.inj helse
          refine .of_shift (.statementLine fun u hu => ?_) hexact
          simpa using Block.Holds.nested houter
            (.elsePart (hopened.conditions_elifPart hdone) ht hu) .nil
      | elsePart opener condition body alternatives => cases helse
      | loop opener => cases helse

/-- Reading goes on where a statement begins or its block ends. -/
theorem accounts_stepStatements (h : b.Holds items) (hexact : Exact items ts)
    (hts : InOrder ((ts ++ [t]).map (·.span))) (hstep : stepStatements b t = some s') :
    s'.Accounts (ts ++ [t]) := by
  have hall := hexact.shift t
  unfold stepStatements at hstep
  split at hstep
  · rename_i hnewline
    obtain rfl := Option.some.inj hstep
    exact ⟨_, .statements (h.newline hnewline), hall⟩
  · rename_i hend
    obtain rfl := Option.some.inj hstep
    exact h.accounts_close hexact hts hend
  · rename_i helif
    exact h.accounts_elif hexact helif hstep
  · rename_i helse
    exact h.accounts_otherwise hexact helse hstep
  · rename_i hif
    obtain rfl := Option.some.inj hstep
    refine ⟨_, ?_, hall⟩
    simpa using State.Holds.operand (.slot (.ifCondition h hif)) .nil
  · rename_i hdo
    obtain rfl := Option.some.inj hstep
    refine ⟨_, .statementLine fun u hu => ?_, hall⟩
    simpa using Block.Holds.nested h (.loop hdo hu) .nil
  · rename_i hbreak
    obtain rfl := Option.some.inj hstep
    have hleave := hall.reduce hts (.leave hbreak) ⟨_, rfl, _, rfl, (Span.add_self _).symm⟩
    exact ⟨_, .statementLine fun u hu => (h.add _).newline hu, hleave⟩
  · rename_i hcycle
    obtain rfl := Option.some.inj hstep
    have hleave := hall.reduce hts (.cycle hcycle) ⟨_, rfl, _, rfl, (Span.add_self _).symm⟩
    exact ⟨_, .statementLine fun u hu => (h.add _).newline hu, hleave⟩
  · rename_i hret
    obtain rfl := Option.some.inj hstep
    exact ⟨_, .ret h hret, hall⟩
  · rw [← List.append_nil items] at hexact
    exact Context.Holds.accounts_stepOperand (.slot (.statement h)) .nil hexact hts hstep

end Block.Holds

/-! ## Declarations -/

/-- Reading goes on where a declaration begins or the class body ends. -/
theorem Enclosing.Holds.accounts_stepDeclarations {e : Enclosing} (h : e.Holds items)
    (hexact : Exact items ts) (hts : InOrder ((ts ++ [t]).map (·.span)))
    (hstep : stepDeclarations e t = some s') : s'.Accounts (ts ++ [t]) := by
  have hall := hexact.shift t
  unfold stepDeclarations at hstep
  split at hstep
  · rename_i hnewline
    obtain rfl := Option.some.inj hstep
    exact ⟨_, .declarations (h.newline hnewline), hall⟩
  · rename_i hend
    cases h with
    | module _ => cases hstep
    | inClass houter hopener hname hnewline hdone =>
        obtain rfl := Option.some.inj hstep
        rw [List.append_assoc] at hall
        have hclass := hall.reduce hts (.classDef hopener hname hnewline hdone hend)
          ⟨_, rfl, _, List.getLast?_concat, rfl⟩
        exact ⟨_, .definitionLine (houter.add _), hclass⟩
  · rename_i hclass
    obtain rfl := Option.some.inj hstep
    exact ⟨_, .className h hclass, hall⟩
  · rename_i hmethod
    obtain rfl := Option.some.inj hstep
    exact ⟨_, .methodName h hmethod, hall⟩
  · rename_i n hname
    obtain rfl := Option.some.inj hstep
    exact ⟨_, .fieldColon h hname, hall⟩
  · cases hstep

namespace Header

variable {h : Header} {arguments : List Item}

/-- Reading goes on behind the arguments of a method. -/
theorem Holds.accounts_stepHeader (hh : h.Holds arguments items)
    (harguments : ArgumentList h.arguments arguments) (hexact : Exact items ts)
    (hstep : stepHeader h t = some s') : s'.Accounts (ts ++ [t]) := by
  have hall := hexact.shift t
  unfold stepHeader at hstep
  split at hstep
  · rename_i hcolon
    obtain rfl := Option.some.inj hstep
    refine ⟨_, ?_, hall⟩
    simpa using State.Holds.operand (.slot (.returns harguments hh hcolon)) .nil
  · rename_i hnewline
    obtain rfl := Option.some.inj hstep
    exact ⟨_, .statements (.method harguments .absent hnewline .nil (hh.append [.token t])), hall⟩
  · cases hstep

/-- Reading goes on with the name of an argument. -/
theorem HoldsArguments.accounts_stepArgumentName (hh : h.HoldsArguments items)
    (hexact : Exact items ts) (hstep : stepArgumentName h t = some s') : s'.Accounts (ts ++ [t]) := by
  obtain ⟨n, hname, rfl⟩ := exists_of_identifier hstep
  exact .of_shift (.argumentColon hh hname) hexact

end Header

/-! ## States -/

namespace State

variable {s : State}

/-- A parser accounts for the token that it reads next, too. -/
theorem accounts_step (h : s.Accounts ts) (hts : InOrder ((ts ++ [t]).map (·.span)))
    (hstep : s.step t = some s') : s'.Accounts (ts ++ [t]) := by
  obtain ⟨items, hholds, hexact⟩ := h
  have hall := hexact.shift t
  cases hholds with
  | declarations he => exact he.accounts_stepDeclarations hexact hts hstep
  | className houter hopener =>
      obtain ⟨n, hname, rfl⟩ := exists_of_identifier hstep
      refine ⟨_, ?_, hall⟩
      simpa using State.Holds.classLine houter hopener hname
  | classLine houter hopener hname =>
      obtain ⟨hnewline, rfl⟩ := eq_of_newline hstep
      refine ⟨_, .declarations ?_, hall⟩
      simpa using Enclosing.Holds.inClass houter hopener hname hnewline .nil
  | definitionLine houter =>
      obtain ⟨hnewline, rfl⟩ := eq_of_newline hstep
      exact ⟨_, .declarations (houter.newline hnewline), hall⟩
  | fieldColon houter hname =>
      obtain ⟨hcolon, rfl⟩ := eq_of_colon hstep
      refine ⟨_, ?_, hall⟩
      simpa using State.Holds.operand (.slot (.field houter hname hcolon)) .nil
  | methodName houter hopener =>
      obtain ⟨n, hname, rfl⟩ := exists_of_identifier hstep
      refine ⟨_, .afterMethodName rfl ?_, hall⟩
      simpa using Header.Holds.mk (h := ⟨_, n, [], _⟩) houter hopener rfl hname
  | @afterMethodName header _ hnone hheader =>
      simp only [step] at hstep
      split at hstep
      · rename_i hopener
        obtain rfl := Option.some.inj hstep
        have harguments : Listed .comma (header.arguments.map .ofArgument) [] := by
          rw [hnone]
          exact .nil
        exact ⟨_, .firstArgument (.mk hopener harguments (hheader.append [.token t])), hall⟩
      · have harguments : ArgumentList header.arguments [] := by
          rw [hnone]
          exact .absent
        exact hheader.accounts_stepHeader harguments hexact hstep
  | firstArgument hheader =>
      simp only [step] at hstep
      split at hstep
      · rename_i hcloser
        obtain rfl := Option.some.inj hstep
        cases hheader with
        | mk hopener harguments hh =>
            exact ⟨_, .afterArguments (.present hopener harguments hcloser)
              (hh.append [.token t]), hall⟩
      · exact hheader.accounts_stepArgumentName hexact hstep
  | argumentName hheader => exact hheader.accounts_stepArgumentName hexact hstep
  | argumentColon hheader hname =>
      obtain ⟨hcolon, rfl⟩ := eq_of_colon hstep
      refine ⟨_, ?_, hall⟩
      simpa using State.Holds.operand (.slot (.argument hheader hname hcolon)) .nil
  | afterArguments harguments hheader => exact hheader.accounts_stepHeader harguments hexact hstep
  | statements hb => exact hb.accounts_stepStatements hexact hts hstep
  | statementLine hb =>
      obtain ⟨hnewline, rfl⟩ := eq_of_newline hstep
      exact ⟨_, .statements (hb t hnewline), hall⟩
  | ret hb hopener =>
      simp only [step] at hstep
      split at hstep
      · rename_i hnewline
        obtain rfl := Option.some.inj hstep
        have hret := hexact.reduce hts.of_map_append_left (.ret hopener)
          ⟨_, rfl, _, rfl, (Span.add_self _).symm⟩
        exact .of_shift (.statements ((hb.add _).newline hnewline)) hret
      · rw [← List.append_nil (_ ++ _)] at hexact
        exact Context.Holds.accounts_stepOperand (.slot (.ret hb hopener)) .nil hexact hts hstep
  | operand hcontext hwaiting => exact hcontext.accounts_stepOperand hwaiting hexact hts hstep
  | memberName hcontext hwaiting hperiod =>
      obtain ⟨n, hname, rfl⟩ := exists_of_identifier hstep
      refine ⟨_, ?_, hall⟩
      simpa using State.Holds.pending hcontext hwaiting (.member hperiod hname)
  | pending hcontext hwaiting hp => exact hcontext.accounts_stepPending hwaiting hp hexact hts hstep

/-- A parser accounts for all tokens that it has read. -/
theorem accounts_readTokens {us : List Token} (h : s.Accounts ts)
    (hts : InOrder ((ts ++ us).map (·.span))) (hread : s.readTokens us = some s') :
    s'.Accounts (ts ++ us) := by
  induction us generalizing s ts with
  | nil =>
      obtain rfl := Option.some.inj hread
      rwa [List.append_nil]
  | cons t us ih =>
      rw [readTokens_cons] at hread
      obtain ⟨next, hstep, hread⟩ := Option.bind_eq_some_iff.1 hread
      have hsplit : ts ++ t :: us = ts ++ [t] ++ us := by simp
      rw [hsplit] at hts ⊢
      exact ih (accounts_step h hts.of_map_append_left hstep) hts hread

/-- Where a program may end, its tokens are those of declarations. -/
theorem exists_of_module? {fileEnd : Position} {c : Class} (h : s.Accounts ts)
    (hmodule : s.endLine.module? fileEnd = some c) :
    ∃ items, OnLines (c.body.map .ofDeclaration) items ∧ Exact items ts ∧
      c.span = ⟨.first, fileEnd⟩ := by
  obtain ⟨items, hholds, hexact⟩ := h
  have hmodule' : ∀ {e : Enclosing}, e.Holds items →
      (declarations e).module? fileEnd = some c →
      OnLines (c.body.map .ofDeclaration) items ∧ c.span = ⟨.first, fileEnd⟩ := by
    intro e he hmodule
    cases he with
    | module hdone =>
        obtain rfl := Option.some.inj hmodule
        exact ⟨hdone, rfl⟩
    | inClass _ _ _ _ _ => cases hmodule
  cases hholds with
  | declarations he =>
      obtain ⟨hlines, hspan⟩ := hmodule' he hmodule
      exact ⟨items, hlines, hexact, hspan⟩
  | definitionLine he =>
      obtain ⟨hlines, hspan⟩ := hmodule' he hmodule
      exact ⟨items, hlines, hexact, hspan⟩
  | _ => cases hmodule

end State

end Parser

/-! ## Sources -/

namespace Source

/-- All tokens of a program that is parsed are those of its declarations, and stand in order between the
beginning and the end of the text, which are those of the module. -/
theorem exists_exact_of_parse {s : Source} {c : Class} (h : s.parse = .ok c) :
    ∃ items, OnLines (c.body.map .ofDeclaration) items ∧ Exact items s.tokens.tokens ∧
      InOrder (s.tokens.tokens.map (·.span)) ∧
      (∀ t ∈ s.tokens.tokens, t.span.Within ⟨.first, s.endPosition⟩) ∧
      c.span = ⟨.first, s.endPosition⟩ := by
  obtain ⟨ts, e, htokens, hrun⟩ := Parser.State.run_eq_ok_iff.1 h
  have hstop : s.tokens.stop = .ok e := congrArg Tokens.stop htokens
  obtain ⟨horder, hwithin⟩ := inOrder_tokens hstop
  have hts : s.tokens.tokens = ts := congrArg Tokens.tokens htokens
  obtain rfl : e = s.endPosition := Cursor.stop_eq_endPosition hstop
  rw [hts] at horder hwithin ⊢
  obtain ⟨last, hread, hmodule⟩ := Parser.State.exists_readTokens_of_runTokens hrun
  have hinitial : Parser.State.initial.Accounts [] := ⟨[], .declarations (.module .nil), .nil⟩
  obtain ⟨items, hlines, hexact, hspan⟩ :=
    Parser.State.exists_of_module? (Parser.State.accounts_readTokens hinitial horder hread) hmodule
  exact ⟨items, hlines, hexact, horder, hwithin, hspan⟩

/-- Every declaration in a program that is parsed, and every part of it at any depth, was read from a
stretch of the tokens and has its place. -/
theorem exists_readFrom_of_parse {s : Source} {c : Class} (h : s.parse = .ok c) {d : Declaration}
    (hd : d ∈ c.body) {p : Part} (hp : p.LiesIn (.ofDeclaration d)) :
    ∃ own, own <:+: s.tokens.tokens ∧ p.ReadFrom own := by
  obtain ⟨items, hlines, hexact, -⟩ := exists_exact_of_parse h
  refine hexact.exists_readFrom _ ?_ p hp
  rw [hlines.partsOf_eq]
  exact List.mem_map_of_mem hd

/-- The places in a program that is parsed are exact, and lie in each other like brackets do. All tokens
of the text are those of the declarations, with newlines around them, and each part at any depth has the
place of the tokens that were read for it, from the first to the last. The module goes from the beginning
to the end of the text. So no place ends before it begins, a part lies in the one around it, and parts
that lie in the same one stand behind each other, in the order of the tree. -/
theorem parse_exact {s : Source} {c : Class} (h : s.parse = .ok c) :
    (∃ items, OnLines (c.body.map .ofDeclaration) items ∧ Exact items s.tokens.tokens) ∧
    (∀ d ∈ c.body, ∀ p : Part, p.LiesIn (.ofDeclaration d) →
      ∃ own, own <:+: s.tokens.tokens ∧ p.ReadFrom own) ∧
    c.span = ⟨.first, s.endPosition⟩ ∧ (Part.ofDeclaration c.toDeclaration).Nested := by
  obtain ⟨items, hlines, hexact, horder, hwithin, hspan⟩ := exists_exact_of_parse h
  refine ⟨⟨items, hlines, hexact⟩, fun d hd p hp => exists_readFrom_of_parse h hd hp, hspan, ?_⟩
  have hmodule : (Part.ofDeclaration c.toDeclaration).span = ⟨.first, s.endPosition⟩ := hspan
  refine hexact.nested_of_within horder hlines.partsOf_eq ?_ ?_ (hexact.nested horder)
  · rw [hmodule]
    exact Position.le_after _ _
  · rw [hmodule]
    exact hwithin

/-- A class is such a program that has a method with an argument, conditions and a call. -/
theorem parse_exact_class :
    let s := ofText "in" "class A\nmethod m(a: B)\nif f(a)\nelif (-a)\nend\nend\nend"
    ∃ c, s.parse = .ok c ∧
      (∃ items, OnLines (c.body.map .ofDeclaration) items ∧ Exact items s.tokens.tokens) ∧
      (∀ d ∈ c.body, ∀ p : Part, p.LiesIn (.ofDeclaration d) →
        ∃ own, own <:+: s.tokens.tokens ∧ p.ReadFrom own) ∧
      c.span = ⟨.first, s.endPosition⟩ ∧ (Part.ofDeclaration c.toDeclaration).Nested := by
  intro s
  have hparse : s.parse.toOption.isSome = true := by decide +kernel
  obtain ⟨c, hc⟩ := Option.isSome_iff_exists.1 hparse
  have h := eq_ok_of_toOption hc
  exact ⟨c, h, parse_exact h⟩

end Source

end Bucket
