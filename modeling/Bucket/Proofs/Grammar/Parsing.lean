/-
# What is parsed is what the grammar derives

A parser reads a token where the state it is in demands one, and goes on to the state that demands
the rest (`State.takes_iff_step`). So a whole program is read exactly when the grammar derives it, and
its tree is the derived one (`Source.parse_iff_program`).
-/
import Bucket.Proofs.Grammar.Declarations
import Bucket.Proofs.Parsing.Run

namespace Bucket

namespace Parser

open Grammar (Kinds)

/-! ## The order of waiting operators -/

/-- Whether the operators that wait outside each pair of brackets are in order. -/
def Context.Ordered : Context → Prop
  | slot _ => True
  | group _ waiting outer => Descends outer waiting ∧ outer.Ordered
  | arguments _ waiting outer => Descends outer waiting ∧ outer.Ordered

/-- Whether all waiting operators of a state are in order. -/
def State.Ordered : State → Prop
  | operand waiting context => Descends context waiting ∧ context.Ordered
  | memberName _ waiting context => Descends context waiting ∧ context.Ordered
  | pending _ waiting context => Descends context waiting ∧ context.Ordered
  | _ => True

/-- No operand needs the level of a power, since the one of a power may begin with an operator. -/
theorem neededLevel_ne_nine (waiting : List Waiting) (context : Context) :
    neededLevel waiting context ≠ 9 := by
  cases waiting with
  | nil =>
      cases context with
      | slot s => cases s <;> simp [neededLevel, Context.level, Slot.level]
      | _ => simp [neededLevel, Context.level]
  | cons w waiting =>
      have hw := w.operandLevel_le
      show w.operandLevel ≠ 9
      omega

/-- What remains of the waiting operators is in order and needs no higher level than the operator
that is read. -/
theorem Descends.applyTighter {context : Context} {level : Nat} (hlevel : context.level ≤ level) :
    ∀ {waiting : List Waiting} (e : Expression) (follow : Nat), Descends context waiting →
      Descends context (applyTighter level e follow waiting).2.1 ∧
        neededLevel (applyTighter level e follow waiting).2.1 context ≤ level
  | [], _, _, _ => ⟨trivial, hlevel⟩
  | w :: waiting, e, follow, h => by
      rw [Parser.applyTighter]
      split
      case isTrue => exact h.2.applyTighter hlevel _ _
      case isFalse hle => exact ⟨h, Nat.not_lt.1 hle⟩

/-- An operator that is read may wait inside those that remain. -/
theorem ordered_stepInfix {op : InfixOp} {e : Expression} {waiting : List Waiting}
    {context : Context} {s' : State} (hwaiting : Descends context waiting)
    (hcontext : context.Ordered) (h : stepInfix op e waiting context = some s') : s'.Ordered := by
  unfold stepInfix at h
  simp only at h
  split at h
  case isTrue hlevel =>
    obtain ⟨hdescends, hle⟩ := hwaiting.applyTighter hlevel.1 e 9
    obtain rfl := Option.some.inj h
    refine ⟨⟨?_, hdescends⟩, hcontext⟩
    -- Only a power needs a lower level for its operand than its own, and then it needs level 8.
    have hnine := neededLevel_ne_nine (applyTighter op.level e 9 waiting).2.1 context
    have hop := op.levels
    show neededLevel (applyTighter op.level e 9 waiting).2.1 context ≤ op.operandLevel
    omega
  case isFalse => simp at h

theorem Slot.ordered_deliver {s : Slot} {e : Expression} {t : Token} {s' : State}
    (h : s.deliver e t = some s') : s'.Ordered := by
  cases s <;> simp only [deliver] at h <;> split at h <;> simp at h <;> subst h <;> trivial

theorem Context.ordered_deliver {c : Context} {e : Expression} {t : Token} {s' : State}
    (hc : c.Ordered) (h : c.deliver e t = some s') : s'.Ordered := by
  cases c with
  | slot s => exact Slot.ordered_deliver h
  | group opener waiting outer =>
      simp only [deliver] at h
      split at h <;> simp at h
      subst h
      exact hc
  | arguments call waiting outer =>
      simp only [deliver] at h
      split at h
      · obtain rfl := Option.some.inj h
        exact ⟨trivial, hc⟩
      · split at h <;> simp at h
        subst h
        exact hc

theorem ordered_slot (s : Slot) : (State.operand [] (.slot s)).Ordered := ⟨trivial, trivial⟩

theorem ordered_stepOperand {waiting : List Waiting} {context : Context} {t : Token} {s' : State}
    (hs : (State.operand waiting context).Ordered)
    (h : stepOperand waiting context t = some s') : s'.Ordered := by
  obtain ⟨hwaiting, hcontext⟩ := hs
  unfold stepOperand at h
  split at h
  · obtain rfl := Option.some.inj h
    exact ⟨hwaiting, hcontext⟩
  · obtain rfl := Option.some.inj h
    exact ⟨hwaiting, hcontext⟩
  · obtain rfl := Option.some.inj h
    exact ⟨trivial, hwaiting, hcontext⟩
  · split at h
    · split at h <;> simp at h
      subst h
      exact ⟨⟨‹_›, hwaiting⟩, hcontext⟩
    · cases context with
      | arguments call outerWaiting outer =>
          simp only [closeEmpty] at h
          split at h <;> simp at h
          subst h
          exact hcontext
      | _ => simp [closeEmpty] at h

theorem ordered_stepPending {p : Pending} {waiting : List Waiting} {context : Context} {t : Token}
    {s' : State} (hs : (State.pending p waiting context).Ordered)
    (h : stepPending p waiting context t = some s') : s'.Ordered := by
  obtain ⟨hwaiting, hcontext⟩ := hs
  unfold stepPending at h
  split at h
  · obtain rfl := Option.some.inj h
    exact ⟨trivial, hwaiting, hcontext⟩
  · obtain rfl := Option.some.inj h
    exact ⟨trivial, hwaiting, hcontext⟩
  · obtain rfl := Option.some.inj h
    exact ⟨hwaiting, hcontext⟩
  · split at h
    · exact ordered_stepInfix hwaiting hcontext h
    · exact Context.ordered_deliver hcontext h

theorem ordered_stepStatements {b : Block} {t : Token} {s' : State}
    (h : stepStatements b t = some s') : s'.Ordered := by
  unfold stepStatements at h
  split at h
  -- Only where a condition or an expression begins is an operand read next, and none waits there.
  case h_2 =>
    obtain rfl := Option.some.inj h
    cases b with
    | method header returns done => trivial
    | nested opened done outer => cases opened <;> trivial
  case h_3 =>
    cases b with
    | method header returns done => simp [Block.elif] at h
    | nested opened done outer =>
        cases opened <;> simp [Block.elif] at h <;> subst h <;> exact ⟨trivial, trivial⟩
  case h_4 =>
    cases b with
    | method header returns done => simp [Block.otherwise] at h
    | nested opened done outer =>
        cases opened <;> simp [Block.otherwise] at h <;> subst h <;> trivial
  case h_5 =>
    obtain rfl := Option.some.inj h
    exact ⟨trivial, trivial⟩
  case h_10 => exact ordered_stepOperand (ordered_slot _) h
  all_goals
    obtain rfl := Option.some.inj h
    trivial

theorem ordered_stepDeclarations {e : Enclosing} {t : Token} {s' : State}
    (h : stepDeclarations e t = some s') : s'.Ordered := by
  unfold stepDeclarations at h
  split at h
  case h_2 => cases e <;> simp [Enclosing.close] at h; subst h; trivial
  case h_6 => simp at h
  all_goals
    obtain rfl := Option.some.inj h
    trivial

theorem ordered_stepHeader {header : Header} {t : Token} {s' : State}
    (h : stepHeader header t = some s') : s'.Ordered := by
  unfold stepHeader at h
  split at h
  · obtain rfl := Option.some.inj h
    exact ⟨trivial, trivial⟩
  · obtain rfl := Option.some.inj h
    trivial
  · simp at h

theorem ordered_stepArgumentName {header : Header} {t : Token} {s' : State}
    (h : stepArgumentName header t = some s') : s'.Ordered := by
  unfold stepArgumentName at h
  split at h <;> simp at h
  subst h
  trivial

/-- The waiting operators stay in order. -/
theorem State.Ordered.step {s s' : State} {t : Token} (hs : s.Ordered) (h : s.step t = some s') :
    s'.Ordered := by
  cases s with
  | declarations e => exact ordered_stepDeclarations h
  | statements b => exact ordered_stepStatements h
  | operand waiting context => exact ordered_stepOperand hs h
  | pending p waiting context => exact ordered_stepPending hs h
  | memberName receiver waiting context =>
      simp only [State.step] at h
      split at h <;> simp at h
      subst h
      exact hs
  | afterArguments header => exact ordered_stepHeader h
  | argumentName header => exact ordered_stepArgumentName h
  | afterMethodName header =>
      simp only [State.step] at h
      split at h
      · obtain rfl := Option.some.inj h
        trivial
      · exact ordered_stepHeader h
  | firstArgument header =>
      simp only [State.step] at h
      split at h
      · obtain rfl := Option.some.inj h
        trivial
      · exact ordered_stepArgumentName h
  | ret span b =>
      simp only [State.step] at h
      split at h
      · obtain rfl := Option.some.inj h
        trivial
      · exact ordered_stepOperand (ordered_slot _) h
  | fieldColon name span outer =>
      simp only [State.step] at h
      split at h <;> simp at h
      subst h
      exact ⟨trivial, trivial⟩
  | argumentColon name span header =>
      simp only [State.step] at h
      split at h <;> simp at h
      subst h
      exact ⟨trivial, trivial⟩
  | _ =>
      simp only [State.step] at h
      split at h <;> simp at h
      subst h
      trivial

/-! ## One token -/

/-- Reading a token without a place adds no places. -/
theorem State.bare_step {s s' : State} {k : Token.Kind} (hs : s.bare = s)
    (h : s.step ⟨k, .first⟩ = some s') : s'.bare = s' := by
  -- The token has no place either, so the step without places is the step itself.
  have hstep := s.step_bare ⟨k, .first⟩
  rw [hs, h] at hstep
  have hbare : some s'.bare = s.step ⟨k, .first⟩ := hstep
  rw [h] at hbare
  exact Option.some.inj hbare

variable {ds : List Declaration} {i : Kinds} {k : Token.Kind}

/-- A state demands the tokens that it reads, and then what the next state demands. -/
theorem State.takes_iff_step {s : State} (hbare : s.bare = s) (hordered : s.Ordered) :
    s.Takes ds (k :: i) ↔ AfterStep ds (s.step ⟨k, .first⟩) i := by
  cases s with
  | declarations e => exact e.takes_iff
  | statements b => exact b.takes_iff
  | operand waiting context => exact context.takes_iff waiting
  | pending p waiting context => exact Pending.takes_iff (State.pending.inj hbare).1 hordered.1
  | afterMethodName header => exact header.takes_iff
  | argumentName header => exact header.takesArguments_iff
  | afterArguments header => exact header.takesReturn_iff
  | firstArgument header =>
      simp only [Takes, step, next_cons, Header.takesArguments_iff]
      split
      case h_1 => simp [stepArgumentName, Takes]
      case h_2 hk => exact or_iff_right fun h => hk h.1
  | ret span b =>
      simp only [Takes, step, next_cons, Context.takes_iff]
      split
      case h_1 => simp [stepOperand, PrefixOp.ofKind?, closeEmpty, Takes]
      case h_2 hk => exact or_iff_right fun h => hk h.1
  | definitionLine outer =>
      simp only [Takes, step]
      split
      case h_1 =>
        rw [afterStep_some, Takes]
        constructor
        · rintro ⟨r, ⟨⟩, h⟩
          exact h
        · intro h
          exact ⟨i, .newline, h⟩
      case h_2 hk =>
        simp only [not_afterStep_none, iff_false]
        rintro ⟨r, hline, -⟩
        cases hline
        exact hk rfl
  | className | methodName | memberName =>
      simp only [Takes, step]
      split
      case h_1 => simp [Takes]
      case h_2 hk => simp [not_nextName hk]
  | _ =>
      simp only [Takes, step, next_cons]
      split <;> simp_all [Takes]

/-! ## All tokens -/

theorem Enclosing.takes_nil_iff (e : Enclosing) :
    e.Takes ds [] ↔
      (State.declarations e).module? .first = some ⟨Class.moduleName, ds, .first⟩ := by
  constructor
  · rintro ⟨more, r, hbody, h⟩
    cases hbody with
    | done =>
        cases e with
        | module done =>
            obtain ⟨-, rfl⟩ := h
            rw [List.append_nil]
            rfl
        | inClass opener name done outer => exact h.elim
    | statement hd _ => exact hd.begins.elim
  · intro h
    cases e with
    | module done =>
        obtain ⟨-, rfl, -⟩ := Class.mk.inj (Option.some.inj h)
        exact ⟨[], [], .done, rfl, (List.append_nil done).symm⟩
    | inClass opener name done outer => simp [State.module?] at h

theorem Context.not_takes_nil (waiting : List Waiting) (c : Context) : ¬ c.Takes ds waiting [] := by
  rintro (⟨e, r, hclimb, -⟩ | h)
  · exact hclimb.begins
  · cases c with
    | arguments call outerWaiting outer => exact h.2
    | _ => exact h

theorem Pending.not_takes_nil (p : Pending) (c : Context) (waiting : List Waiting) :
    ¬ p.Takes c (c.TakesValue ds) waiting [] := by
  rintro ⟨h, r, htail, h'⟩
  cases htail with
  | done => exact not_takesTail_nil _ _ _ _ h'
  | call hargs _ => cases hargs

/-- A state demands no more tokens when the program may end in it. -/
theorem State.takes_nil_iff (s : State) :
    s.Takes ds [] ↔ s.endLine.module? .first = some ⟨Class.moduleName, ds, .first⟩ := by
  cases s with
  | declarations e => exact e.takes_nil_iff
  | definitionLine outer =>
      refine Iff.trans ?_ outer.takes_nil_iff
      constructor
      · rintro ⟨r, ⟨⟩, h⟩
        exact h
      · intro h
        exact ⟨[], .endOfFile, h⟩
  | operand waiting context => simp [Takes, endLine, module?, Context.not_takes_nil]
  | pending p waiting context => simp [Takes, endLine, module?, Pending.not_takes_nil]
  | statements b => simp [Takes, endLine, module?, Block.not_takes_nil]
  | afterMethodName header => simp [Takes, endLine, module?, Header.not_takes_nil]
  | firstArgument header => simp [Takes, endLine, module?, Header.not_takesArguments_nil]
  | argumentName header => simp [Takes, endLine, module?, Header.not_takesArguments_nil]
  | afterArguments header => simp [Takes, endLine, module?, Header.not_takesReturn_nil]
  | ret span b => simp [Takes, endLine, module?, Context.not_takes_nil]
  | _ => simp [Takes, endLine, module?]

/-- The tokens that a state demands are those that are read to the end of a program with the
declarations `ds`. -/
theorem State.takes_iff_reads {s : State} (hbare : s.bare = s) (hordered : s.Ordered) :
    s.Takes ds i ↔
      (s.reads i).bind (·.endLine.module? .first) = some ⟨Class.moduleName, ds, .first⟩ := by
  -- The induction is on the tokens that are left. Each state on the way is bare and in order.
  induction i generalizing s with
  | nil => exact s.takes_nil_iff
  | cons k i ih =>
      rw [takes_iff_step hbare hordered, reads_cons]
      cases hstep : s.step ⟨k, .first⟩ with
      | none => simp
      | some s' =>
          rw [afterStep_some, Option.bind_some]
          exact ih (bare_step hbare hstep) (hordered.step hstep)

theorem readModule?_eq_some_iff {kinds : Kinds} {ds : List Declaration} :
    readModule? kinds = some ⟨Class.moduleName, ds, .first⟩ ↔ Grammar.Program kinds ds := by
  rw [readModule?, ← State.takes_iff_reads (s := .initial) rfl trivial]
  constructor
  · rintro ⟨more, r, hbody, rfl, rfl⟩
    exact hbody
  · intro hbody
    exact ⟨ds, [], hbody, rfl, rfl⟩

/-- The grammar derives one tree at most. -/
theorem eq_of_program {kinds : Kinds} {ds ds' : List Declaration}
    (h : Grammar.Program kinds ds) (h' : Grammar.Program kinds ds') : ds = ds' := by
  have hread := readModule?_eq_some_iff.2 h
  rw [readModule?_eq_some_iff.2 h'] at hread
  exact (Class.mk.inj (Option.some.inj hread)).2.1.symm

/-- What is read is a module with no place. -/
theorem exists_of_readModule? {kinds : Kinds} {m : Class} (h : readModule? kinds = some m) :
    ∃ ds, m = ⟨Class.moduleName, ds, .first⟩ := by
  obtain ⟨s, -, hs⟩ := Option.bind_eq_some_iff.1 h
  unfold State.module? at hs
  split at hs
  · exact ⟨_, (Option.some.inj hs).symm⟩
  · simp at hs

end Parser

/-- A source without faults in its words holds a program exactly when the grammar derives one from
its tokens, and then its tree, apart from places, is the derived one. -/
theorem Source.parse_iff_program {s : Source} {e : Position} (h : s.tokens.stop = .ok e) :
    ((∃ c, s.parse = .ok c) ↔ ∃ ds, Grammar.Program s.kinds ds) ∧
      ∀ c ds, s.parse = .ok c → Grammar.Program s.kinds ds →
        c.bare = ⟨Class.moduleName, ds, .first⟩ := by
  have hparse := Source.parse_of_stop h
  refine ⟨⟨?_, ?_⟩, ?_⟩
  · rintro ⟨c, hc⟩
    rw [hc] at hparse
    obtain ⟨ds, hds⟩ := Parser.exists_of_readModule? hparse.symm
    exact ⟨ds, Parser.readModule?_eq_some_iff.1 (hds ▸ hparse.symm)⟩
  · rintro ⟨ds, hds⟩
    rw [Parser.readModule?_eq_some_iff.2 hds] at hparse
    obtain ⟨c, hc, -⟩ := Option.map_eq_some_iff.1 hparse
    exact ⟨c, eq_ok_of_toOption hc⟩
  · intro c ds hc hds
    rw [hc, Parser.readModule?_eq_some_iff.2 hds] at hparse
    exact Option.some.inj hparse

/-- A conditional needs no line end behind its `end`, so the one of the method may stand there, and
that one is followed by the end of the file. -/
theorem Source.parse_iff_program_conditional : ∃ e c ds,
    (Source.ofText "in" "method m\nif a\nb\nelif c.d\nelse\nend end").tokens.stop = .ok e ∧
      (Source.ofText "in" "method m\nif a\nb\nelif c.d\nelse\nend end").parse = .ok c ∧
      Grammar.Program (Source.ofText "in" "method m\nif a\nb\nelif c.d\nelse\nend end").kinds ds ∧
      c.bare = ⟨Class.moduleName, ds, .first⟩ := by
  have hparse : (Source.ofText "in"
      "method m\nif a\nb\nelif c.d\nelse\nend end").parse.toOption.isSome = true := by
    decide +kernel
  obtain ⟨c, hc⟩ := Option.isSome_iff_exists.1 hparse
  have hc := eq_ok_of_toOption hc
  obtain ⟨e, he⟩ := Source.exists_stop_of_parse hc
  obtain ⟨ds, hds⟩ := (Source.parse_iff_program he).1.1 ⟨c, hc⟩
  exact ⟨e, c, ds, he, hc, hds, (Source.parse_iff_program he).2 c ds hc hds⟩

end Bucket
