/-
# Reading the tokens of declarations

The tokens that are demanded where a declaration begins, and in the first line of a method, are those
that are read there (`Enclosing.takes_iff`, `Header.takesReturn_iff`). The `end` of a class or of a
method needs a line end behind it, or the end of the file.
-/
import Bucket.Proofs.Grammar.Statements

namespace Bucket

/-! ## What declarations begin with -/

namespace Grammar

/-- A declaration begins with its keyword, or with the name of a field. -/
theorem GlobalStatement.begins {i r : Kinds} {d : Declaration} (h : GlobalStatement i r d) :
    Heads (fun k => k = .keyword .classKw ∨ k = .keyword .methodKw ∨ ∃ n, k = .identifier n) i := by
  cases h with
  | classDef h => cases h; exact .inl rfl
  | methodDef h => cases h; exact .inr (.inl rfl)
  | fieldDecl h => cases h; exact .inr (.inr ⟨_, rfl⟩)

end Grammar

namespace Parser

open Grammar (Kinds PostfixExpr GlobalStatement Body)

variable {ds : List Declaration} {i : Kinds} {k : Token.Kind}

/-! ## Arguments and return types -/

/-- Where only an operand of the highest level may stand, one is demanded. -/
theorem Context.takes_type_iff {s : Slot} (hlevel : s.level = 10) :
    (slot s).Takes ds [] i ↔ ∃ e r, PostfixExpr i r e ∧ s.TakesValue ds e r := by
  rw [Takes, show neededLevel [] (slot s) = 10 from hlevel]
  simp only [Grammar.climb_ten_iff]
  exact or_iff_left id

namespace Header

/-- Behind the arguments of a method there may be a type, and then its line ends. -/
theorem takesReturn_iff (h : Header) :
    h.TakesReturn ds (k :: i) ↔ AfterStep ds (stepHeader h ⟨k, .first⟩) i := by
  unfold stepHeader
  split
  case h_1 hk =>
    obtain rfl : k = .symbol .colon := hk
    rw [afterStep_some, State.Takes, Context.takes_type_iff rfl]
    constructor
    · rintro ⟨type, r, htype, h⟩
      cases htype with
      | present he => exact ⟨_, _, he, rfl, h⟩
    · rintro ⟨e, r, he, h⟩
      obtain ⟨j, rfl⟩ := exists_of_next h
      exact ⟨some e, j, .present he, h.2⟩
  case h_2 hk =>
    obtain rfl : k = .symbol .newline := hk
    rw [afterStep_some, State.Takes]
    constructor
    · rintro ⟨type, r, htype, h⟩
      cases htype
      exact h
    · intro h
      exact ⟨none, i, .absent, h⟩
  case h_3 hcolon hnewline =>
    simp only [not_afterStep_none, iff_false]
    rintro ⟨type, r, htype, -⟩
    cases htype with
    | absent => exact hnewline rfl
    | present _ => exact hcolon rfl

theorem not_takesReturn_nil (h : Header) : ¬ h.TakesReturn ds [] := by
  rintro ⟨type, r, ⟨⟩, -⟩

theorem addAll_nil (h : Header) : h.addAll [] = h := by
  simp [addAll]

theorem addAll_cons (a : Argument) (as : List Argument) (h : Header) :
    h.addAll (a :: as) = (h.add a).addAll as := by
  simp [addAll, add]

/-- An argument has a name and a type. A further one follows behind a comma. -/
theorem takesArguments_iff (h : Header) :
    h.TakesArguments ds (k :: i) ↔ AfterStep ds (stepArgumentName h ⟨k, .first⟩) i := by
  unfold stepArgumentName
  split
  case h_1 name hk =>
    obtain rfl : k = .identifier name := hk
    rw [afterStep_some, State.Takes]
    constructor
    · rintro ⟨as, r, has, hr⟩
      cases has with
      | one ha =>
          obtain ⟨he⟩ := ha
          refine ⟨rfl, (Context.takes_type_iff rfl).2 ⟨_, _, he, .inr ⟨rfl, ?_⟩⟩⟩
          rwa [he.span, Span.first_add_first]
      | more ha has =>
          obtain ⟨he⟩ := ha
          refine ⟨rfl, (Context.takes_type_iff rfl).2 ⟨_, _, he, .inl ⟨rfl, ?_⟩⟩⟩
          rw [he.span, Span.first_add_first]
          exact ⟨_, r, has, addAll_cons _ _ h ▸ hr⟩
    · intro hnext
      obtain ⟨j, rfl⟩ := exists_of_next hnext
      obtain ⟨e, r, he, hr⟩ := (Context.takes_type_iff rfl).1 hnext.2
      rw [Slot.TakesValue, he.span, Span.first_add_first] at hr
      rcases hr with hr | hr
      · obtain ⟨l, rfl⟩ := exists_of_next hr
        obtain ⟨-, as, s, has, hr⟩ := hr
        exact ⟨_, s, .more (.mk he) has, (addAll_cons _ _ h).symm ▸ hr⟩
      · obtain ⟨l, rfl⟩ := exists_of_next hr
        exact ⟨_, l, .one (.mk he), hr.2⟩
  case h_2 hname =>
    simp only [not_afterStep_none, iff_false]
    rintro ⟨as, r, has, -⟩
    cases has with
    | one ha => cases ha; exact hname _ rfl
    | more ha _ => cases ha; exact hname _ rfl

theorem not_takesArguments_nil (h : Header) : ¬ h.TakesArguments ds [] := by
  rintro ⟨as, r, has, -⟩
  cases has with
  | one ha => cases ha
  | more ha _ => cases ha

/-- Behind the name of a method there may be arguments in parentheses. -/
theorem takes_iff (h : Header) :
    h.Takes ds (k :: i) ↔ AfterStep ds ((State.afterMethodName h).step ⟨k, .first⟩) i := by
  -- Without a parenthesis there are no arguments.
  have habsent (hk : k ≠ .symbol .openParenthesis) :
      h.Takes ds (k :: i) ↔ h.TakesReturn ds (k :: i) := by
    constructor
    · rintro ⟨as, r, has, hr⟩
      cases has with
      | absent => rwa [addAll_nil] at hr
      | empty => exact absurd rfl hk
      | list _ => exact absurd rfl hk
    · intro hr
      exact ⟨[], _, .absent, by rwa [addAll_nil]⟩
  unfold State.step
  dsimp only
  split
  case h_1 =>
    rw [afterStep_some, State.Takes]
    constructor
    · rintro ⟨as, r, has, hr⟩
      cases has with
      | absent =>
          rw [takesReturn_iff] at hr
          exact absurd hr (not_afterStep_none i)
      | empty => exact .inl ⟨rfl, addAll_nil h ▸ hr⟩
      | list has => exact .inr ⟨_, r, has, hr⟩
    · rintro (hr | ⟨as, r, has, hr⟩)
      · obtain ⟨j, rfl⟩ := exists_of_next hr
        exact ⟨[], j, .empty, (addAll_nil h).symm ▸ hr.2⟩
      · exact ⟨as, r, .list has, hr⟩
  case h_2 hk => rw [habsent hk, takesReturn_iff]

theorem not_takes_nil (h : Header) : ¬ h.Takes ds [] := by
  rintro ⟨as, r, has, hr⟩
  cases has
  exact not_takesReturn_nil _ hr

end Header

/-! ## Class bodies -/

namespace Enclosing

theorem ends_add (e : Enclosing) (d : Declaration) (more : List Declaration) :
    (e.add d).Ends ds more i ↔ e.Ends ds (d :: more) i := by
  cases e <;> simp [add, Ends]

theorem takes_add_iff (e : Enclosing) (d : Declaration) :
    (e.add d).Takes ds i ↔ ∃ rest r, Body i r rest ∧ e.Ends ds (d :: rest) r := by
  simp only [Takes, ends_add]

/-- Class bodies are ended by `end`. -/
theorem Ends.eq_end {e : Enclosing} {more : List Declaration} (h : e.Ends ds more (k :: i)) :
    k = .keyword .endKw := by
  cases e with
  | module done => exact absurd h.1 (by simp)
  | inClass opener name done outer => exact h.1

theorem ends_close_iff (e : Enclosing) :
    e.Ends ds [] (.keyword .endKw :: i) ↔
      AfterStep ds (e.close ⟨.keyword .endKw, .first⟩) i := by
  cases e with
  | module done => simp [Ends, close]
  | inClass opener name done outer =>
      rw [close, afterStep_some, State.Takes, TakesLine]
      simp only [takes_add_iff, Ends, next_cons, List.append_nil]
      constructor
      · rintro ⟨-, r, s, rest, hline, hbody, h⟩
        exact ⟨r, hline, rest, s, hbody, h⟩
      · rintro ⟨r, hline, rest, s, hbody, h⟩
        exact ⟨trivial, r, s, rest, hline, hbody, h⟩

theorem takes_newline_iff (e : Enclosing) : e.Takes ds (.symbol .newline :: i) ↔ e.Takes ds i := by
  constructor
  · rintro ⟨more, r, hbody, h⟩
    cases hbody with
    | done => exact absurd h.eq_end (by simp)
    | newline hbody => exact ⟨more, r, hbody, h⟩
    | statement hd _ => exact absurd hd.begins (by simp [Grammar.Heads])
  · rintro ⟨more, r, hbody, h⟩
    exact ⟨more, r, .newline hbody, h⟩

theorem takes_end_iff (e : Enclosing) :
    e.Takes ds (.keyword .endKw :: i) ↔ e.Ends ds [] (.keyword .endKw :: i) := by
  constructor
  · rintro ⟨more, r, hbody, h⟩
    cases hbody with
    | done => exact h
    | statement hd _ => exact absurd hd.begins (by simp [Grammar.Heads])
  · intro h
    exact ⟨[], _, .done, h⟩

/-- Every token but a line end and `end` begins a declaration. -/
theorem takes_declaration_iff (hnewline : k ≠ .symbol .newline) (hend : k ≠ .keyword .endKw)
    (e : Enclosing) :
    e.Takes ds (k :: i) ↔ ∃ d r, GlobalStatement (k :: i) r d ∧ (e.add d).Takes ds r := by
  simp only [takes_add_iff]
  constructor
  · rintro ⟨more, r, hbody, h⟩
    cases hbody with
    | done => exact absurd h.eq_end hend
    | newline _ => exact absurd rfl hnewline
    | statement hd hbody => exact ⟨_, _, hd, _, r, hbody, h⟩
  · rintro ⟨d, r, hd, rest, l, hbody, h⟩
    exact ⟨d :: rest, l, .statement hd hbody, h⟩

theorem takes_class_iff (e : Enclosing) :
    e.Takes ds (.keyword .classKw :: i) ↔ (State.className .first e).Takes ds i := by
  rw [takes_declaration_iff (by simp) (by simp), State.Takes]
  constructor
  · rintro ⟨d, r, hd, h⟩
    cases hd with
    | classDef hd =>
        obtain ⟨hbody, hline⟩ := hd
        obtain ⟨rest, s, hrest, h⟩ := (takes_add_iff e _).1 h
        refine ⟨rfl, _, _, hbody, rfl, r, s, rest, hline, hrest, ?_⟩
        rwa [Span.first_add_first]
    | methodDef hd => cases hd
    | fieldDecl hd => cases hd
  · intro h
    cases i with
    | nil => exact h.elim
    | cons k i =>
        -- First the name and a line end, then the body, its `end` and a line end.
        obtain ⟨name, rfl, h⟩ := exists_of_nextName h
        obtain ⟨j, rfl⟩ := exists_of_next h
        obtain ⟨-, more, l, hbody, h⟩ := h
        obtain ⟨l, rfl⟩ := exists_of_next h
        obtain ⟨-, r, s, rest, hline, hrest, h⟩ := h
        rw [Span.first_add_first] at h
        exact ⟨_, r, .classDef (.mk hbody hline), (takes_add_iff e _).2 ⟨rest, s, hrest, h⟩⟩

theorem takes_method_iff (e : Enclosing) :
    e.Takes ds (.keyword .methodKw :: i) ↔ (State.methodName .first e).Takes ds i := by
  rw [takes_declaration_iff (by simp) (by simp), State.Takes]
  constructor
  · rintro ⟨d, r, hd, h⟩
    cases hd with
    | classDef hd => cases hd
    | methodDef hd =>
        obtain ⟨has, htype, hbody, hline⟩ := hd
        refine ⟨_, _, has, _, _, htype, _, _, hbody, rfl, r, hline, ?_⟩
        show (e.add (.method ⟨_, _, _, _, .first + .first⟩)).Takes ds r
        rwa [Span.first_add_first]
    | fieldDecl hd => cases hd
  · intro h
    cases i with
    | nil => exact h.elim
    | cons k i =>
        obtain ⟨name, rfl, as, j, has, type, l, htype, body, s, hbody, h⟩ := exists_of_nextName h
        obtain ⟨s, rfl⟩ := exists_of_next h
        obtain ⟨-, r, hline, h⟩ := h
        have h : (e.add (.method ⟨name, as, type, body, .first + .first⟩)).Takes ds r := h
        rw [Span.first_add_first] at h
        exact ⟨_, r, .methodDef (.mk has htype hbody hline), h⟩

theorem takes_field_iff (e : Enclosing) (name : String) :
    e.Takes ds (.identifier name :: i) ↔ (State.fieldColon name .first e).Takes ds i := by
  rw [takes_declaration_iff (by simp) (by simp), State.Takes]
  constructor
  · rintro ⟨d, r, hd, h⟩
    cases hd with
    | classDef hd => cases hd
    | methodDef hd => cases hd
    | fieldDecl hd =>
        obtain ⟨he⟩ := hd
        refine ⟨rfl, (Context.takes_line_iff rfl fun _ => rfl).2 ⟨_, _, he, ?_⟩⟩
        rwa [he.span, Span.first_add_first]
  · intro h
    obtain ⟨j, rfl⟩ := exists_of_next h
    obtain ⟨type, r, he, h⟩ := (Context.takes_line_iff rfl fun _ => rfl).1 h.2
    rw [he.span, Span.first_add_first] at h
    exact ⟨_, r, .fieldDecl (.mk he), h⟩

/-- The tokens that are demanded in a class body are those that are read there. -/
theorem takes_iff (e : Enclosing) :
    e.Takes ds (k :: i) ↔ AfterStep ds (stepDeclarations e ⟨k, .first⟩) i := by
  unfold stepDeclarations
  split
  case h_1 hk =>
    obtain rfl : k = .symbol .newline := hk
    rw [takes_newline_iff, afterStep_some, State.Takes]
  case h_2 hk =>
    obtain rfl : k = .keyword .endKw := hk
    rw [takes_end_iff, ends_close_iff]
  case h_3 hk =>
    obtain rfl : k = .keyword .classKw := hk
    rw [takes_class_iff, afterStep_some]
  case h_4 hk =>
    obtain rfl : k = .keyword .methodKw := hk
    rw [takes_method_iff, afterStep_some]
  case h_5 name hk =>
    obtain rfl : k = .identifier name := hk
    rw [takes_field_iff, afterStep_some]
  case h_6 hnewline hend hclass hmethod hname =>
    rw [takes_declaration_iff hnewline hend]
    simp only [not_afterStep_none, iff_false]
    rintro ⟨d, r, hd, -⟩
    rcases hd.begins with hk | hk | ⟨n, hk⟩
    · exact hclass hk
    · exact hmethod hk
    · exact hname n hk

end Enclosing

end Parser

end Bucket
