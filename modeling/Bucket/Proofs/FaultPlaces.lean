/-
# Where faults are told

Whatever is wrong with a text, the place that is told lies in it, between two characters
(`Source.fault_places`). Faults in the words stand behind all tokens that were read before
(`Source.StandsAt.tokens`). A token that is refused is one of the text, or the end of it. The places in
a tree are those of the tokens that it was read from, so a name that is wrong is told where a token of
the text begins, too.
-/
import Bucket.Proofs.Lexing.Standing
import Bucket.Proofs.Parsing.FirstFault
import Bucket.Proofs.Scoping.Analysis
import Bucket.Proofs.Spans.Exactness

namespace Bucket

open Bucket.Parser (State)

/-! ## Tokens -/

/-- Whether a token stands in a source from one boundary between characters to a later one. -/
structure Token.StandsIn (t : Token) (s : Source) (start stop : Nat) : Prop where
  start_mem : start ∈ s.boundaries
  stop_mem : stop ∈ s.boundaries
  start_lt : start < stop
  span_eq : t.span = s.span start stop

namespace Source

variable {s : Source}

/-- Whether a token of a source begins at a byte offset. -/
def BeginsToken (s : Source) (o : Nat) : Prop := ∃ t ∈ s.tokens.tokens, ∃ stop, t.StandsIn s o stop

theorem BeginsToken.mem_boundaries {o : Nat} (h : s.BeginsToken o) : o ∈ s.boundaries := by
  obtain ⟨_, _, _, ht⟩ := h
  exact ht.start_mem

/-- The tokens that are left to read stand behind a cursor. A fault that ends them lies behind all of
them. -/
theorem StandsAt.tokens {cursor : Cursor} {o : Nat} (h : s.StandsAt cursor o) :
    (∀ t ∈ cursor.tokens.tokens, ∃ start stop, t.StandsIn s start stop) ∧
    ∀ d, cursor.tokens.stop = .error d → ∃ fault place, d = .lexical fault (s.positionAt place) ∧
      place ∈ s.boundaries ∧ o ≤ place ∧
      ∀ t ∈ cursor.tokens.tokens, ∃ start stop, t.StandsIn s start stop ∧ stop ≤ place := by
  -- Along the tokens as they are read: a fault behind the others lies behind the first one, too.
  fun_induction Cursor.tokens cursor generalizing o with
  | case1 cursor d next hpull =>
      obtain ⟨-, _, -, -, hread⟩ := h.pull
      rw [hpull] at hread
      obtain ⟨fault, place, hplace, hle, rfl⟩ := hread
      refine ⟨by simp, fun d' hd' => ?_⟩
      obtain rfl := Except.error.inj hd'
      exact ⟨fault, place, rfl, hplace, hle, by simp⟩
  | case2 cursor t next hpull ht => exact ⟨by simp, fun d hd => by cases hd⟩
  | case3 cursor t next hpull ht ih =>
      obtain ⟨-, o', hnext, hle, hread⟩ := h.pull
      rw [hpull] at hnext hread
      rcases hread with ⟨rfl, -⟩ | ⟨-, start, hstart, -, hlt, hspan⟩
      · exact absurd rfl ht
      · have hfirst : t.StandsIn s start o' := ⟨hstart, hnext.mem_boundaries, hlt, hspan⟩
        obtain ⟨htokens, hstop⟩ := ih hnext
        refine ⟨List.forall_mem_cons.2 ⟨⟨start, o', hfirst⟩, htokens⟩, fun d hd => ?_⟩
        obtain ⟨fault, place, hd, hplace, hle', hbefore⟩ := hstop d hd
        exact ⟨fault, place, hd, hplace, hle.trans hle',
          List.forall_mem_cons.2 ⟨⟨start, o', hfirst, hle'⟩, hbefore⟩⟩

/-- Every token of a source begins at an offset. -/
theorem exists_beginsToken {t : Token} (ht : t ∈ s.tokens.tokens) :
    ∃ o, s.BeginsToken o ∧ t.span.start = s.positionAt o := by
  obtain ⟨start, stop, hstands⟩ := (StandsAt.cursor s).tokens.1 t ht
  exact ⟨start, ⟨t, ht, stop, hstands⟩, congrArg Span.start hstands.span_eq⟩

end Source

/-! ## Refused tokens -/

/-- A list of tokens that is not a program is refused at one of them or at the end of the file. -/
theorem Parser.State.exists_of_runTokens {state : State} {fileEnd : Position} {ts : List Token}
    {d : Diagnostic} (h : state.runTokens fileEnd ts = .error d) :
    ∃ expected found p, d = .syntactic expected found p ∧
      (p = fileEnd ∨ ∃ t ∈ ts, p = t.span.start) := by
  induction ts generalizing state with
  | nil =>
      rw [State.runTokens, State.finish] at h
      split at h
      · cases h
      · exact ⟨_, _, _, (Except.error.inj h).symm, .inl rfl⟩
  | cons t rest ih =>
      rw [State.runTokens] at h
      split at h
      · obtain ⟨expected, found, p, hd, hp⟩ := ih h
        refine ⟨expected, found, p, hd, hp.imp_right ?_⟩
        rintro ⟨u, hu, hp⟩
        exact ⟨u, List.mem_cons_of_mem t hu, hp⟩
      · exact ⟨_, _, _, (Except.error.inj h).symm, .inr ⟨t, List.mem_cons_self, rfl⟩⟩

namespace Source

variable {s : Source} {d : Diagnostic}

/-- A source that holds no module has a fault in its words, or a token that is refused, be it the end of
the file. -/
theorem exists_of_parse_error (h : s.parse = .error d) :
    s.tokens.toExcept = .error d ∨ ∃ expected found p, d = .syntactic expected found p ∧
      (p = s.endPosition ∨ ∃ t ∈ s.tokens.tokens, p = t.span.start) := by
  cases hstop : s.tokens.stop with
  | ok e =>
      have hts : s.tokens.toExcept = .ok s.tokens.tokens := by rw [Tokens.toExcept, hstop]
      rw [parse_of_toExcept hts] at h
      exact .inr (State.exists_of_runTokens h)
  | error d' =>
      rw [parse_of_fault hstop] at h
      cases hrefusal : State.initial.refusal? s.tokens.tokens with
      | none =>
          rw [hrefusal] at h
          obtain rfl : d' = d := Except.error.inj h
          exact .inl (by rw [Tokens.toExcept, hstop])
      | some d'' =>
          rw [hrefusal] at h
          obtain rfl : d'' = d := Except.error.inj h
          obtain ⟨before, t, after, state, hsplit, -, -, rfl⟩ := State.refusal?_eq_some_iff.1 hrefusal
          exact .inr ⟨_, _, _, rfl, .inr ⟨t, by rw [hsplit]; simp, rfl⟩⟩

end Source

/-! ## Declarations -/

/-- A declaration in a class lies in one of those directly in its body. -/
theorem Class.exists_liesIn {c : Class} {i : Nat} {outer : Place} {d : Declaration}
    (h : c.declaration? (i :: outer) = some d) :
    ∃ top ∈ c.body, (Part.ofDeclaration d).LiesIn (.ofDeclaration top) := by
  -- From the outermost class inward.
  induction outer generalizing i d with
  | nil =>
      rw [declaration?_cons] at h
      exact ⟨d, List.mem_of_getElem? h, .self _⟩
  | cons j outer ih =>
      obtain ⟨around, haround, -, hbody⟩ := isClass_of_declaration?_cons h
      obtain ⟨top, htop, hlies⟩ := ih haround
      rw [declaration?_cons, hbody] at h
      have hchild : Part.ofDeclaration d ∈ (Part.ofDeclaration around).children := by
        cases around with
        | classDef name body span => exact List.mem_map_of_mem (List.mem_of_getElem? h)
        | method m => cases h
        | field f => cases h
      exact ⟨top, htop, (Part.LiesIn.child hchild (.self _)).trans hlies⟩

/-- The types that a declaration names lie in it. -/
theorem Declaration.liesIn_of_mem_types {d : Declaration} {type : Expression} (h : type ∈ d.types) :
    (Part.ofExpression type).LiesIn (.ofDeclaration d) := by
  cases d with
  | classDef name body span => cases h
  | method m =>
      rcases List.mem_append.1 h with h | h
      · obtain ⟨a, ha, rfl⟩ := List.mem_map.1 h
        have hargument : Part.ofArgument a ∈ (Part.ofDeclaration (.method m)).children :=
          List.mem_append_left _ (List.mem_map_of_mem ha)
        exact .child hargument (.child (List.mem_singleton_self _) (.self _))
      · have hresult : Part.ofExpression type ∈ (Part.ofDeclaration (.method m)).children :=
          List.mem_append_right _ (List.mem_append_left _ (List.mem_map_of_mem h))
        exact .child hresult (.self _)
  | field f =>
      obtain rfl := List.mem_singleton.1 h
      exact .child (List.mem_singleton_self _) (.self _)

namespace Source

variable {s : Source} {c : Class} {d : Diagnostic}

/-- A part of a program that is parsed begins where a token of the text does. -/
theorem exists_beginsToken_of_liesIn (h : s.parse = .ok c) {p : Part} {i : Nat} {outer : Place}
    {e : Declaration} (he : c.declaration? (i :: outer) = some e) (hp : p.LiesIn (.ofDeclaration e)) :
    ∃ o, s.BeginsToken o ∧ p.span.start = s.positionAt o := by
  obtain ⟨top, htop, hlies⟩ := Class.exists_liesIn he
  obtain ⟨own, hown, hcovers, -⟩ := exists_readFrom_of_parse h htop (hp.trans hlies)
  obtain ⟨⟨t, ht, hstart⟩, -⟩ := hcovers.exists_mem
  rw [hstart]
  exact exists_beginsToken (hown.subset ht)

/-- What is wrong with the names of a program is told where a declaration begins or a type does, and
that is where a token of the text begins. -/
theorem exists_of_analyze_error (h : s.parse = .ok c) (hd : Module.analyze c = .error d) :
    ∃ fault o, d = .semantic fault (s.positionAt o) ∧ s.BeginsToken o ∧
      ∃ i outer e, c.declaration? (i :: outer) = some e ∧
        (e.span.start = s.positionAt o ∨ ∃ type ∈ e.types, type.span.start = s.positionAt o) := by
  obtain ⟨place, hplace, hfault⟩ := Class.exists_fault?_of_analyze hd
  obtain ⟨e, fault, p, he, rfl, hp⟩ := Class.exists_of_fault? hfault
  cases place with
  | nil => exact absurd hplace c.nil_notMem_places
  | cons i outer =>
      rcases hp with rfl | ⟨type, htype, rfl⟩
      · obtain ⟨o, ho, hstart⟩ := exists_beginsToken_of_liesIn h he (.self _)
        have hstart : e.span.start = s.positionAt o := hstart
        exact ⟨fault, o, by rw [hstart], ho, i, outer, e, he, .inl hstart⟩
      · obtain ⟨o, ho, hstart⟩ :=
          exists_beginsToken_of_liesIn h he (Declaration.liesIn_of_mem_types htype)
        have hstart : type.span.start = s.positionAt o := hstart
        exact ⟨fault, o, by rw [hstart], ho, i, outer, e, he, .inr ⟨type, htype, hstart⟩⟩

/-! ## All faults -/

/-- Every fault of a text is told at a place in it. When the words are read, it is a lexical one on a
boundary between characters, and behind all tokens that were read before. When the text is parsed, it is
that fault, or a syntactic one where a token begins or at the end of the text. When what was parsed is
analyzed, it is a semantic one where a declaration begins or a type does, in the tree and in the text.
All boundaries lie between the beginning and the end of the text. -/
theorem fault_places (s : Source) :
    (∀ d, s.tokens.toExcept = .error d →
      ∃ fault o, d = .lexical fault (s.positionAt o) ∧ o ∈ s.boundaries ∧
        ∀ t ∈ s.tokens.tokens, ∃ start stop, t.StandsIn s start stop ∧ stop ≤ o) ∧
    (∀ d, s.parse = .error d → s.tokens.toExcept = .error d ∨
      ∃ expected found o, d = .syntactic expected found (s.positionAt o) ∧ o ∈ s.boundaries ∧
        (o = s.byteSize ∨ s.BeginsToken o)) ∧
    (∀ c d, s.parse = .ok c → Module.analyze c = .error d →
      ∃ fault o, d = .semantic fault (s.positionAt o) ∧ o ∈ s.boundaries ∧ s.BeginsToken o ∧
        ∃ i outer e, c.declaration? (i :: outer) = some e ∧
          (e.span.start = s.positionAt o ∨ ∃ type ∈ e.types, type.span.start = s.positionAt o)) ∧
    ∀ o ∈ s.boundaries, o ≤ s.byteSize ∧ .first ≤ s.positionAt o ∧ s.positionAt o ≤ s.endPosition := by
  refine ⟨fun d hd => ?_, fun d hd => ?_, fun c d hc hd => ?_, fun o ho =>
    ⟨le_byteSize_of_mem_boundaries ho, positionAt_bounds ho⟩⟩
  · have hstop : s.cursor.tokens.stop = .error d := by
      rw [Tokens.toExcept] at hd
      split at hd
      · cases hd
      · rename_i hstop
        rw [← Except.error.inj hd]
        exact hstop
    obtain ⟨fault, o, rfl, ho, -, hbefore⟩ := (StandsAt.cursor s).tokens.2 d hstop
    exact ⟨fault, o, rfl, ho, hbefore⟩
  · refine (exists_of_parse_error hd).imp_right ?_
    rintro ⟨expected, found, p, rfl, rfl | ⟨t, ht, rfl⟩⟩
    · rw [← positionAt_byteSize]
      exact ⟨expected, found, _, rfl, s.byteSize_mem_boundaries, .inl rfl⟩
    · obtain ⟨o, ho, hstart⟩ := exists_beginsToken ht
      rw [hstart]
      exact ⟨expected, found, o, rfl, ho.mem_boundaries, .inr ho⟩
  · obtain ⟨fault, o, rfl, ho, hplace⟩ := exists_of_analyze_error hc hd
    exact ⟨fault, o, rfl, ho.mem_boundaries, ho, hplace⟩

/-- A type that no class has the name of is told in characters, though it stands behind one that takes
two bytes. -/
theorem fault_places_accent :
    let s := ofText "in" "é: é\n"
    ∃ c, s.parse = .ok c ∧ Module.analyze c = .error (.semantic (.unknownName "é") ⟨1, 4⟩) ∧
      ∃ o ∈ s.boundaries, s.positionAt o = ⟨1, 4⟩ ∧ s.BeginsToken o := by
  intro s
  have hanalyze : s.parse.toOption.map Module.analyze =
      some (.error (.semantic (.unknownName "é") ⟨1, 4⟩)) := by
    decide +kernel
  obtain ⟨c, hc, herror⟩ := Option.map_eq_some_iff.1 hanalyze
  have hparse := eq_ok_of_toOption hc
  obtain ⟨fault, o, hfault, ho, hbegins, -⟩ := (fault_places s).2.2.1 c _ hparse herror
  exact ⟨c, hparse, herror, o, ho, (Diagnostic.semantic.inj hfault).2.symm, hbegins⟩

end Source

end Bucket
