/-
# The words of a tree

The names and literals of a tree that was read are tokens of its text, apart from the few names that
operators and calls bring with them (`Source.allWords_of_parse`). So all of them can be written.
-/
import Bucket.Proofs.Parsing.Run
import Bucket.Tree.Printer

namespace Bucket

/-! ## Trees -/

section Trees

variable (P : Token.Kind → Prop)

mutual

/-- Whether all names and literals of an expression have a property. -/
def Expression.AllWords : Expression → Prop
  | .identifier name _ => P (.identifier name)
  | .literal value _ => P (.literal value)
  | .call receiver method arguments _ =>
      receiver.AllWords ∧ P (.identifier method) ∧ AllWordsOfExpressions arguments
  | .assignment left right _ => left.AllWords ∧ right.AllWords

/-- Whether all names and literals of some expressions have a property. -/
def AllWordsOfExpressions : List Expression → Prop
  | [] => True
  | e :: rest => e.AllWords ∧ AllWordsOfExpressions rest

end

mutual

/-- Whether all names and literals of a statement have a property. -/
def Statement.AllWords : Statement → Prop
  | .conditional condition body alternatives otherwise _ =>
      condition.AllWords P ∧ AllWordsOfBlock body ∧ AllWordsOfAlternatives alternatives ∧
        AllWordsOfBlock otherwise
  | .loop body _ => AllWordsOfBlock body
  | .leave _ => True
  | .cycle _ => True
  | .ret value _ => ∀ e ∈ value, e.AllWords P
  | .expression value _ => value.AllWords P

/-- Whether all names and literals of some statements have a property. -/
def AllWordsOfBlock : List Statement → Prop
  | [] => True
  | s :: rest => s.AllWords ∧ AllWordsOfBlock rest

/-- Whether all names and literals of further conditions and their bodies have a property. -/
def AllWordsOfAlternatives : List (Expression × List Statement) → Prop
  | [] => True
  | (condition, body) :: rest =>
      condition.AllWords P ∧ AllWordsOfBlock body ∧ AllWordsOfAlternatives rest

end

/-- Whether all names and literals of an argument have a property. -/
def Argument.AllWords (a : Argument) : Prop := P (.identifier a.name) ∧ a.type.AllWords P

/-- Whether all names and literals of a method have a property. -/
def Method.AllWords (m : Method) : Prop :=
  P (.identifier m.name) ∧ (∀ a ∈ m.arguments, a.AllWords P) ∧ (∀ e ∈ m.returns, e.AllWords P) ∧
    AllWordsOfBlock P m.body

/-- Whether all names and literals of a field have a property. -/
def Field.AllWords (f : Field) : Prop := P (.identifier f.name) ∧ f.type.AllWords P

mutual

/-- Whether all names and literals of a declaration have a property. -/
def Declaration.AllWords : Declaration → Prop
  | .classDef name body _ => P (.identifier name) ∧ AllWordsOfDeclarations body
  | .method m => m.AllWords P
  | .field f => f.AllWords P

/-- Whether all names and literals of some declarations have a property. -/
def AllWordsOfDeclarations : List Declaration → Prop
  | [] => True
  | d :: rest => d.AllWords ∧ AllWordsOfDeclarations rest

end

@[simp] theorem allWordsOfExpressions_append (a b : List Expression) :
    AllWordsOfExpressions P (a ++ b) ↔ AllWordsOfExpressions P a ∧ AllWordsOfExpressions P b := by
  induction a with
  | nil => simp [AllWordsOfExpressions]
  | cons e rest ih => simp [AllWordsOfExpressions, ih, and_assoc]

@[simp] theorem allWordsOfBlock_append (a b : List Statement) :
    AllWordsOfBlock P (a ++ b) ↔ AllWordsOfBlock P a ∧ AllWordsOfBlock P b := by
  induction a with
  | nil => simp [AllWordsOfBlock]
  | cons s rest ih => simp [AllWordsOfBlock, ih, and_assoc]

@[simp] theorem allWordsOfAlternatives_append (a b : List (Expression × List Statement)) :
    AllWordsOfAlternatives P (a ++ b) ↔
      AllWordsOfAlternatives P a ∧ AllWordsOfAlternatives P b := by
  induction a with
  | nil => simp [AllWordsOfAlternatives]
  | cons s rest ih => simp [AllWordsOfAlternatives, ih, and_assoc]

@[simp] theorem allWordsOfDeclarations_append (a b : List Declaration) :
    AllWordsOfDeclarations P (a ++ b) ↔
      AllWordsOfDeclarations P a ∧ AllWordsOfDeclarations P b := by
  induction a with
  | nil => simp [AllWordsOfDeclarations]
  | cons d rest ih => simp [AllWordsOfDeclarations, ih, and_assoc]

theorem Expression.allWords_withSpan {e : Expression} (s : Span) :
    (e.withSpan s).AllWords P ↔ e.AllWords P := by
  cases e <;> exact Iff.rfl

theorem allWords_of_mem {d : Declaration} {ds : List Declaration}
    (h : AllWordsOfDeclarations P ds) (hd : d ∈ ds) : d.AllWords P := by
  induction ds with
  | nil => simp at hd
  | cons d' rest ih =>
      rcases List.mem_cons.1 hd with rfl | hd
      · exact h.1
      · exact ih h.2 hd

/-- A class in a class has no other words. -/
theorem Class.allWords_nested? {c inner : Class} {path : List Nat}
    (h : c.toDeclaration.AllWords P) (hinner : c.nested? path = some inner) :
    inner.toDeclaration.AllWords P := by
  induction path generalizing c with
  | nil =>
      obtain rfl := Option.some.inj hinner
      exact h
  | cons i path ih =>
      simp only [nested?, Option.bind_eq_bind, Option.bind_eq_some_iff] at hinner
      obtain ⟨d, hd, next, hnext, hinner⟩ := hinner
      have hmem : d ∈ c.body := List.mem_of_getElem? hd
      have hwords : d.AllWords P := allWords_of_mem P h.2 hmem
      cases d with
      | classDef name body span =>
          obtain rfl := Option.some.inj hnext
          exact ih (c := ⟨name, body, span⟩) hwords hinner
      | method m => simp [Declaration.class?] at hnext
      | field f => simp [Declaration.class?] at hnext

end Trees

namespace Parser

/-! ## States -/

section States

variable (P : Token.Kind → Prop)

/-- Whether all words in class bodies have a property. -/
def Enclosing.AllWords : Enclosing → Prop
  | module done => AllWordsOfDeclarations P done
  | inClass _ name done outer =>
      P (.identifier name) ∧ AllWordsOfDeclarations P done ∧ outer.AllWords

/-- Whether all words in the first line of a method, and around it, have a property. -/
def Header.AllWords (h : Header) : Prop :=
  P (.identifier h.name) ∧ (∀ a ∈ h.arguments, a.AllWords P) ∧ h.outer.AllWords P

/-- Whether all words in a statement that was opened have a property. -/
def Opened.AllWords : Opened → Prop
  | thenPart _ condition => condition.AllWords P
  | elifPart _ condition body alternatives current =>
      condition.AllWords P ∧ AllWordsOfBlock P body ∧ AllWordsOfAlternatives P alternatives ∧
        current.AllWords P
  | elsePart _ condition body alternatives =>
      condition.AllWords P ∧ AllWordsOfBlock P body ∧ AllWordsOfAlternatives P alternatives
  | loop _ => True

/-- Whether all words in blocks have a property. -/
def Block.AllWords : Block → Prop
  | method header returns done =>
      header.AllWords P ∧ (∀ e ∈ returns, e.AllWords P) ∧ AllWordsOfBlock P done
  | nested opened done outer => opened.AllWords P ∧ AllWordsOfBlock P done ∧ outer.AllWords

/-- Whether all words in what an expression is for have a property. -/
def Slot.AllWords : Slot → Prop
  | field name _ outer => P (.identifier name) ∧ outer.AllWords P
  | argument name _ header => P (.identifier name) ∧ header.AllWords P
  | returns header => header.AllWords P
  | ifCondition _ block => block.AllWords P
  | elifCondition _ condition body alternatives block =>
      condition.AllWords P ∧ AllWordsOfBlock P body ∧ AllWordsOfAlternatives P alternatives ∧
        block.AllWords P
  | ret _ block => block.AllWords P
  | statement block => block.AllWords P

/-- Whether all words in an open call have a property. -/
def OpenCall.AllWords (c : OpenCall) : Prop :=
  c.receiver.AllWords P ∧ P (.identifier c.method) ∧ AllWordsOfExpressions P c.arguments

/-- Whether all words in what waits for an operand have a property. -/
def Waiting.AllWords : Waiting → Prop
  | prefixOp _ _ => True
  | infixOp left _ => left.AllWords P

/-- Whether all words in a context have a property. -/
def Context.AllWords : Context → Prop
  | slot s => s.AllWords P
  | group _ waiting outer => (∀ w ∈ waiting, w.AllWords P) ∧ outer.AllWords
  | arguments call waiting outer =>
      call.AllWords P ∧ (∀ w ∈ waiting, w.AllWords P) ∧ outer.AllWords

/-- Whether all words in a pending operand have a property. -/
def Pending.AllWords : Pending → Prop
  | name n _ => P (.identifier n)
  | member receiver n _ => receiver.AllWords P ∧ P (.identifier n)
  | whole e => e.AllWords P

/-- Whether all words in a state have a property. -/
def State.AllWords : State → Prop
  | declarations e => e.AllWords P
  | className _ outer => outer.AllWords P
  | classLine _ name outer => P (.identifier name) ∧ outer.AllWords P
  | definitionLine outer => outer.AllWords P
  | fieldColon name _ outer => P (.identifier name) ∧ outer.AllWords P
  | methodName _ outer => outer.AllWords P
  | afterMethodName h => h.AllWords P
  | firstArgument h => h.AllWords P
  | argumentName h => h.AllWords P
  | argumentColon name _ h => P (.identifier name) ∧ h.AllWords P
  | afterArguments h => h.AllWords P
  | statements b => b.AllWords P
  | statementLine b => b.AllWords P
  | ret _ b => b.AllWords P
  | operand waiting context => (∀ w ∈ waiting, w.AllWords P) ∧ context.AllWords P
  | memberName receiver waiting context =>
      receiver.AllWords P ∧ (∀ w ∈ waiting, w.AllWords P) ∧ context.AllWords P
  | pending p waiting context =>
      p.AllWords P ∧ (∀ w ∈ waiting, w.AllWords P) ∧ context.AllWords P

end States

/-! ## Building trees -/

/-- The names that a parser brings with it: those of operators and calls. -/
def OwnName (n : String) : Prop :=
  n = Expression.selfName ∨ n = "__call__" ∨ n = "__index__" ∨
    (∃ op : PrefixOp, n = op.method) ∨ ∃ op : BinaryOp, n = op.method

section Steps

variable {P : Token.Kind → Prop} (hown : ∀ n, OwnName n → P (.identifier n))

theorem Enclosing.AllWords.add {d : Declaration} {e : Enclosing} (he : e.AllWords P)
    (hd : d.AllWords P) : (e.add d).AllWords P := by
  cases e with
  | module done => simp_all [Enclosing.add, Enclosing.AllWords, AllWordsOfDeclarations]
  | inClass opener name done outer =>
      simp_all [Enclosing.add, Enclosing.AllWords, AllWordsOfDeclarations]

theorem Header.AllWords.add {a : Argument} {h : Header} (hh : h.AllWords P)
    (ha : a.AllWords P) : (h.add a).AllWords P := by
  obtain ⟨hname, harguments, houter⟩ := hh
  refine ⟨hname, ?_, houter⟩
  intro b hb
  rcases List.mem_append.1 hb with hb | hb
  · exact harguments b hb
  · obtain rfl := List.mem_singleton.1 hb
    exact ha

theorem Block.AllWords.add {s : Statement} {b : Block} (hb : b.AllWords P) (hs : s.AllWords P) :
    (b.add s).AllWords P := by
  cases b with
  | method header returns done =>
      obtain ⟨hheader, hreturns, hdone⟩ := hb
      exact ⟨hheader, hreturns, by simp [hdone, hs, AllWordsOfBlock]⟩
  | nested opened done outer =>
      obtain ⟨hopened, hdone, houter⟩ := hb
      exact ⟨hopened, by simp [hdone, hs, AllWordsOfBlock], houter⟩

theorem OpenCall.AllWords.add {e : Expression} {c : OpenCall} (hc : c.AllWords P)
    (he : e.AllWords P) : (c.add e).AllWords P := by
  obtain ⟨hreceiver, hmethod, harguments⟩ := hc
  exact ⟨hreceiver, hmethod, by simp [OpenCall.add, harguments, he, AllWordsOfExpressions]⟩

include hown

theorem Waiting.AllWords.apply {e : Expression} {w : Waiting} (hw : w.AllWords P)
    (he : e.AllWords P) : (w.apply e).AllWords P := by
  -- The name of the operator is the only word that the parser puts in by itself.
  cases w with
  | prefixOp op opener =>
      exact ⟨he, hown _ (.inr (.inr (.inr (.inl ⟨op, rfl⟩)))), trivial⟩
  | infixOp left op =>
      cases op with
      | assign => exact ⟨hw, he⟩
      | binary op => exact ⟨hw, hown _ (.inr (.inr (.inr (.inr ⟨op, rfl⟩)))), he, trivial⟩

theorem allWords_applyAll {e : Expression} {waiting : List Waiting} (he : e.AllWords P)
    (hw : ∀ w ∈ waiting, w.AllWords P) : (applyAll e waiting).AllWords P := by
  induction waiting generalizing e with
  | nil => exact he
  | cons w rest ih =>
      exact ih ((hw w (by simp)).apply hown he) fun w' hw' => hw w' (by simp [hw'])

theorem allWords_applyTighter (level : Nat) {e : Expression} (follow : Nat)
    {waiting : List Waiting} (he : e.AllWords P) (hw : ∀ w ∈ waiting, w.AllWords P) :
    (applyTighter level e follow waiting).1.AllWords P ∧
      ∀ w ∈ (applyTighter level e follow waiting).2.1, w.AllWords P := by
  induction waiting generalizing e follow with
  | nil => exact ⟨he, by simp [applyTighter]⟩
  | cons w rest ih =>
      unfold applyTighter
      split
      · exact ih _ ((hw w (by simp)).apply hown he) fun w' hw' => hw w' (by simp [hw'])
      · exact ⟨he, hw⟩

omit hown in
theorem Pending.AllWords.value {p : Pending} (hp : p.AllWords P) : p.value.AllWords P := by
  cases p with
  | name n s => exact hp
  | member receiver n s => exact ⟨hp.1, hp.2, trivial⟩
  | whole e => exact hp

theorem Pending.AllWords.openCall {p : Pending} (hp : p.AllWords P) :
    p.openCall.AllWords P := by
  cases p with
  | name n s => exact ⟨hown _ (.inl rfl), hp, trivial⟩
  | member receiver n s => exact ⟨hp.1, hp.2, trivial⟩
  | whole e => exact ⟨hp, hown _ (.inr (.inl rfl)), trivial⟩

theorem Pending.AllWords.openIndex {p : Pending} (hp : p.AllWords P) :
    p.openIndex.AllWords P :=
  ⟨hp.value, hown _ (.inr (.inr (.inl rfl))), trivial⟩

/-! ## One token -/

omit hown in
theorem Slot.AllWords.deliver {s : Slot} {e : Expression} {t : Token} {s' : State}
    (hs : s.AllWords P) (he : e.AllWords P) (h : s.deliver e t = some s') : s'.AllWords P := by
  cases s with
  | field name span outer =>
      simp only [Slot.deliver] at h
      split at h
      · obtain rfl := Option.some.inj h
        exact hs.2.add ⟨hs.1, he⟩
      · simp at h
  | argument name span header =>
      simp only [Slot.deliver] at h
      split at h
      · obtain rfl := Option.some.inj h
        exact hs.2.add ⟨hs.1, he⟩
      · obtain rfl := Option.some.inj h
        exact hs.2.add ⟨hs.1, he⟩
      · simp at h
  | returns header =>
      simp only [Slot.deliver] at h
      split at h
      · obtain rfl := Option.some.inj h
        exact ⟨hs, by simpa using he, trivial⟩
      · simp at h
  | ifCondition opener block =>
      simp only [Slot.deliver] at h
      split at h
      · obtain rfl := Option.some.inj h
        exact ⟨he, trivial, hs⟩
      · simp at h
  | elifCondition opener condition body alternatives block =>
      obtain ⟨hcondition, hbody, halternatives, hblock⟩ := hs
      simp only [Slot.deliver] at h
      split at h
      · obtain rfl := Option.some.inj h
        exact ⟨⟨hcondition, hbody, halternatives, he⟩, trivial, hblock⟩
      · simp at h
  | ret span block =>
      simp only [Slot.deliver] at h
      split at h
      · obtain rfl := Option.some.inj h
        exact Block.AllWords.add hs (by simpa [Statement.AllWords] using he)
      · simp at h
  | statement block =>
      simp only [Slot.deliver] at h
      split at h
      · obtain rfl := Option.some.inj h
        exact Block.AllWords.add hs he
      · simp at h

omit hown in
theorem Context.AllWords.deliver {c : Context} {e : Expression} {t : Token} {s' : State}
    (hc : c.AllWords P) (he : e.AllWords P) (h : c.deliver e t = some s') : s'.AllWords P := by
  cases c with
  | slot s => exact Slot.AllWords.deliver hc he h
  | group opener waiting outer =>
      simp only [Context.deliver] at h
      split at h
      · obtain rfl := Option.some.inj h
        exact ⟨(Expression.allWords_withSpan P _).2 he, hc⟩
      · simp at h
  | arguments call waiting outer =>
      simp only [Context.deliver] at h
      split at h
      · obtain rfl := Option.some.inj h
        exact ⟨by simp, hc.1.add he, hc.2⟩
      · split at h
        · obtain rfl := Option.some.inj h
          exact ⟨hc.1.add he, hc.2⟩
        · simp at h

omit hown in
theorem allWords_stepOperand {waiting : List Waiting} {context : Context} {t : Token} {s' : State}
    (hw : ∀ w ∈ waiting, w.AllWords P) (hc : context.AllWords P) (ht : P t.kind)
    (h : stepOperand waiting context t = some s') : s'.AllWords P := by
  unfold stepOperand at h
  split at h
  · rename_i hkind
    obtain rfl := Option.some.inj h
    rw [hkind] at ht
    exact ⟨ht, hw, hc⟩
  · rename_i hkind
    obtain rfl := Option.some.inj h
    rw [hkind] at ht
    exact ⟨ht, hw, hc⟩
  · obtain rfl := Option.some.inj h
    exact ⟨by simp, hw, hc⟩
  · split at h
    · split at h
      · obtain rfl := Option.some.inj h
        exact ⟨by simpa [Waiting.AllWords] using hw, hc⟩
      · simp at h
    · unfold closeEmpty at h
      split at h
      · split at h
        · obtain rfl := Option.some.inj h
          exact hc
        · simp at h
      · simp at h

theorem allWords_stepPending {p : Pending} {waiting : List Waiting} {context : Context} {t : Token}
    {s' : State} (hp : p.AllWords P) (hw : ∀ w ∈ waiting, w.AllWords P) (hc : context.AllWords P)
    (h : stepPending p waiting context t = some s') : s'.AllWords P := by
  unfold stepPending at h
  split at h
  · obtain rfl := Option.some.inj h
    exact ⟨by simp, hp.openCall hown, hw, hc⟩
  · obtain rfl := Option.some.inj h
    exact ⟨by simp, hp.openIndex hown, hw, hc⟩
  · obtain rfl := Option.some.inj h
    exact ⟨hp.value, hw, hc⟩
  · split at h
    · -- Operators that bind tighter are applied first, and the others go on waiting.
      rename_i op _
      have htighter := allWords_applyTighter hown op.level 9 hp.value hw
      simp only [stepInfix] at h
      split at h
      · obtain rfl := Option.some.inj h
        refine ⟨?_, hc⟩
        intro w hw'
        rcases List.mem_cons.1 hw' with rfl | hw'
        · exact htighter.1
        · exact htighter.2 w hw'
      · simp at h
    · exact hc.deliver (allWords_applyAll hown hp.value hw) h

omit hown in
theorem Block.AllWords.close {b : Block} (hb : b.AllWords P) (t : Token) :
    (b.close t).AllWords P := by
  cases b with
  | method header returns done =>
      obtain ⟨hheader, hreturns, hdone⟩ := hb
      exact hheader.2.2.add ⟨hheader.1, hheader.2.1, hreturns, hdone⟩
  | nested opened done outer =>
      obtain ⟨hopened, hdone, houter⟩ := hb
      cases opened with
      | thenPart opener condition => exact houter.add ⟨hopened, hdone, trivial, trivial⟩
      | elifPart opener condition body alternatives current =>
          obtain ⟨hcondition, hbody, halternatives, hcurrent⟩ := hopened
          exact houter.add ⟨hcondition, hbody,
            by simp [halternatives, hcurrent, hdone, AllWordsOfAlternatives], trivial⟩
      | elsePart opener condition body alternatives =>
          obtain ⟨hcondition, hbody, halternatives⟩ := hopened
          exact houter.add ⟨hcondition, hbody, halternatives, hdone⟩
      | loop opener => exact houter.add hdone

omit hown in
theorem Block.AllWords.elif {b : Block} {s' : State} (hb : b.AllWords P)
    (h : b.elif = some s') : s'.AllWords P := by
  unfold Block.elif at h
  split at h
  · obtain rfl := Option.some.inj h
    exact ⟨by simp, hb.1, hb.2.1, trivial, hb.2.2⟩
  · obtain rfl := Option.some.inj h
    obtain ⟨⟨hcondition, hbody, halternatives, hcurrent⟩, hdone, houter⟩ := hb
    exact ⟨by simp, hcondition, hbody,
      by simp [halternatives, hcurrent, hdone, AllWordsOfAlternatives], houter⟩
  · simp at h

omit hown in
theorem Block.AllWords.otherwise {b : Block} {s' : State} (hb : b.AllWords P)
    (h : b.otherwise = some s') : s'.AllWords P := by
  unfold Block.otherwise at h
  split at h
  · obtain rfl := Option.some.inj h
    exact ⟨⟨hb.1, hb.2.1, trivial⟩, trivial, hb.2.2⟩
  · obtain rfl := Option.some.inj h
    obtain ⟨⟨hcondition, hbody, halternatives, hcurrent⟩, hdone, houter⟩ := hb
    exact ⟨⟨hcondition, hbody,
      by simp [halternatives, hcurrent, hdone, AllWordsOfAlternatives]⟩, trivial, houter⟩
  · simp at h

omit hown in
theorem allWords_stepStatements {b : Block} {t : Token} {s' : State} (hb : b.AllWords P)
    (ht : P t.kind) (h : stepStatements b t = some s') : s'.AllWords P := by
  unfold stepStatements at h
  split at h
  · obtain rfl := Option.some.inj h
    exact hb
  · obtain rfl := Option.some.inj h
    exact hb.close t
  · exact hb.elif h
  · exact hb.otherwise h
  · obtain rfl := Option.some.inj h
    exact ⟨by simp, hb⟩
  · obtain rfl := Option.some.inj h
    exact ⟨trivial, trivial, hb⟩
  · obtain rfl := Option.some.inj h
    exact Block.AllWords.add hb trivial
  · obtain rfl := Option.some.inj h
    exact Block.AllWords.add hb trivial
  · obtain rfl := Option.some.inj h
    exact hb
  · have hcontext : (Context.slot (.statement b)).AllWords P := hb
    exact allWords_stepOperand (by simp) hcontext ht h

omit hown in
theorem allWords_stepDeclarations {e : Enclosing} {t : Token} {s' : State} (he : e.AllWords P)
    (ht : P t.kind) (h : stepDeclarations e t = some s') : s'.AllWords P := by
  unfold stepDeclarations at h
  split at h
  · obtain rfl := Option.some.inj h
    exact he
  · cases e with
    | module done => simp [Enclosing.close] at h
    | inClass opener name done outer =>
        obtain rfl := Option.some.inj h
        exact he.2.2.add ⟨he.1, he.2.1⟩
  · obtain rfl := Option.some.inj h
    exact he
  · obtain rfl := Option.some.inj h
    exact he
  · rename_i hkind
    obtain rfl := Option.some.inj h
    rw [hkind] at ht
    exact ⟨ht, he⟩
  · simp at h

omit hown in
theorem allWords_stepHeader {h : Header} {t : Token} {s' : State} (hh : h.AllWords P)
    (hstep : stepHeader h t = some s') : s'.AllWords P := by
  unfold stepHeader at hstep
  split at hstep
  · obtain rfl := Option.some.inj hstep
    exact ⟨by simp, hh⟩
  · obtain rfl := Option.some.inj hstep
    exact ⟨hh, by simp, trivial⟩
  · simp at hstep

omit hown in
theorem allWords_stepArgumentName {h : Header} {t : Token} {s' : State} (hh : h.AllWords P)
    (ht : P t.kind) (hstep : stepArgumentName h t = some s') : s'.AllWords P := by
  unfold stepArgumentName at hstep
  split at hstep
  · rename_i hkind
    obtain rfl := Option.some.inj hstep
    rw [hkind] at ht
    exact ⟨ht, hh⟩
  · simp at hstep

/-- A token adds no other words than itself and those of the parser. -/
theorem State.AllWords.step {s s' : State} {t : Token} (hs : s.AllWords P) (ht : P t.kind)
    (h : s.step t = some s') : s'.AllWords P := by
  cases s with
  | declarations e => exact allWords_stepDeclarations hs ht h
  | className opener outer =>
      simp only [State.step] at h
      split at h
      · rename_i hkind
        obtain rfl := Option.some.inj h
        rw [hkind] at ht
        exact ⟨ht, hs⟩
      · simp at h
  | classLine opener name outer =>
      simp only [State.step] at h
      split at h
      · obtain rfl := Option.some.inj h
        exact ⟨hs.1, trivial, hs.2⟩
      · simp at h
  | definitionLine outer =>
      simp only [State.step] at h
      split at h
      · obtain rfl := Option.some.inj h
        exact hs
      · simp at h
  | fieldColon name span outer =>
      simp only [State.step] at h
      split at h
      · obtain rfl := Option.some.inj h
        exact ⟨by simp, hs⟩
      · simp at h
  | methodName opener outer =>
      simp only [State.step] at h
      split at h
      · rename_i hkind
        obtain rfl := Option.some.inj h
        rw [hkind] at ht
        exact ⟨ht, by simp, hs⟩
      · simp at h
  | afterMethodName header =>
      simp only [State.step] at h
      split at h
      · obtain rfl := Option.some.inj h
        exact hs
      · exact allWords_stepHeader hs h
  | firstArgument header =>
      simp only [State.step] at h
      split at h
      · obtain rfl := Option.some.inj h
        exact hs
      · exact allWords_stepArgumentName hs ht h
  | argumentName header => exact allWords_stepArgumentName hs ht h
  | argumentColon name span header =>
      simp only [State.step] at h
      split at h
      · obtain rfl := Option.some.inj h
        exact ⟨by simp, hs⟩
      · simp at h
  | afterArguments header => exact allWords_stepHeader hs h
  | statements b => exact allWords_stepStatements hs ht h
  | statementLine b =>
      simp only [State.step] at h
      split at h
      · obtain rfl := Option.some.inj h
        exact hs
      · simp at h
  | ret span b =>
      simp only [State.step] at h
      split at h
      · obtain rfl := Option.some.inj h
        exact Block.AllWords.add hs (by simp [Statement.AllWords])
      · have hcontext : (Context.slot (.ret span b)).AllWords P := hs
        exact allWords_stepOperand (by simp) hcontext ht h
  | operand waiting context => exact allWords_stepOperand hs.1 hs.2 ht h
  | memberName receiver waiting context =>
      simp only [State.step] at h
      split at h
      · rename_i hkind
        obtain rfl := Option.some.inj h
        rw [hkind] at ht
        exact ⟨⟨hs.1, ht⟩, hs.2⟩
      · simp at h
  | pending p waiting context => exact allWords_stepPending hown hs.1 hs.2.1 hs.2.2 h

/-! ## Programs -/

/-- A program has no other words than its tokens and those of the parser. -/
theorem State.AllWords.runTokens {s : State} {fileEnd : Position} {ts : List Token} {m : Class}
    (hs : s.AllWords P) (hts : ∀ t ∈ ts, P t.kind) (h : s.runTokens fileEnd ts = .ok m) :
    AllWordsOfDeclarations P m.body := by
  -- The words of the state are an invariant. Its last state holds those of the module.
  induction ts generalizing s with
  | nil =>
      have hmodule : ∀ {s : State} {p : Position} {m : Class}, s.AllWords P →
          s.module? p = some m → AllWordsOfDeclarations P m.body := by
        intro s p m hs hm
        unfold State.module? at hm
        split at hm
        · obtain rfl := Option.some.inj hm
          exact hs
        · simp at hm
      have hend : s.endLine.AllWords P := by
        cases s <;> exact hs
      simp only [State.runTokens, State.finish] at h
      split at h
      · rename_i hm
        obtain rfl := Except.ok.inj h
        exact hmodule hend hm
      · simp at h
  | cons t rest ih =>
      simp only [State.runTokens] at h
      split at h
      · rename_i s' hstep
        exact ih (hs.step hown (hts t (by simp)) hstep) (fun u hu => hts u (by simp [hu])) h
      · simp at h

end Steps

/-- The names that a parser brings with it can be written. -/
theorem OwnName.isWritable {n : String} (h : OwnName n) :
    (Token.Kind.identifier n).isWritable = true := by
  rcases h with rfl | rfl | rfl | ⟨op, rfl⟩ | ⟨op, rfl⟩
  · decide +kernel
  · decide +kernel
  · decide +kernel
  · cases op <;> decide +kernel
  · cases op <;> decide +kernel

end Parser

/-- All names and literals of a tree that was read can be written. -/
theorem Source.allWords_of_parse {s : Source} {m : Class} (h : s.parse = .ok m) :
    AllWordsOfDeclarations (·.isWritable = true) m.body := by
  obtain ⟨ts, e, htokens, hrun⟩ := Parser.State.run_eq_ok_iff.1 h
  have hts := Cursor.isWritable_of_mem_tokens (c := s.cursor) (e := e) (by rw [htokens])
  rw [htokens] at hts
  have hinitial : Parser.State.initial.AllWords (·.isWritable = true) := trivial
  exact hinitial.runTokens (fun n hn => hn.isWritable) hts hrun

end Bucket
