/-
# Printing and compiling

A program that compiles is printed as a program that compiles to the same objects, and that is
printed as the same text (`Source.analyze_render`). Types of a program that compiles are plain names,
so its text can be parsed, and where its parts stand has no effect on its objects.
-/
import Bucket.Proofs.Printing.Moving
import Bucket.Proofs.Printing.RoundTrip
import Bucket.Proofs.Scoping.Moving

namespace Bucket

/-! ## Trees without places -/

namespace Module

/-- A class without places has the same objects. -/
theorem toOption_analyze_bare (c : Class) : (analyze c.bare).toOption = (analyze c).toOption := by
  -- A diagnostic tells a place, so only whether there is one can be the same.
  rw [analyze_bare]
  cases analyze c <;> rfl

/-! ## Types of a program that compiles -/

/-- A type that means a class is a name. -/
theorem parenthesizedTarget_of_lookupClass {m : Module} {scope id : ObjectId} {type : Expression}
    (h : m.lookupClass scope type = .ok id) : type.parenthesizedTarget = false := by
  cases type with
  | assignment left right span => simp [lookupClass, Expression.name?] at h
  | _ => rfl

theorem all_of_lookupArguments {m : Module} {scope : ObjectId} {as : List Argument}
    {types : List (String × ObjectId)} (h : m.lookupArguments scope as = .ok types) :
    as.all (!·.type.parenthesizedTarget) = true := by
  induction as generalizing types with
  | nil => rfl
  | cons a rest ih =>
      obtain ⟨type, htype, h⟩ := exists_of_bind_ok h
      obtain ⟨others, hothers, -⟩ := exists_of_bind_ok h
      rw [List.all_cons, parenthesizedTarget_of_lookupClass htype, ih hothers]
      rfl

/-- A method whose first line is without fault can be printed. -/
theorem hasReadableHeader_of_methodObject {m : Module} {parent : ObjectId} {method : Method}
    {o : Object} (h : m.methodObject parent method = .ok o) : method.hasReadableHeader = true := by
  obtain ⟨arguments, harguments, h⟩ := exists_of_bind_ok h
  obtain ⟨returns, hreturns, -⟩ := exists_of_bind_ok h
  rw [Method.hasReadableHeader, all_of_lookupArguments harguments, Bool.true_and]
  cases hr : method.returns with
  | none => rfl
  | some type =>
      rw [hr, lookupReturns] at hreturns
      cases htype : m.lookupClass parent type with
      | ok id =>
          rw [Option.all_some, parenthesizedTarget_of_lookupClass htype]
          rfl
      | error e => simp [htype, Except.map] at hreturns

mutual

/-- A declaration that is declared without fault can be printed. -/
theorem isReadable_of_declare : ∀ (d : Declaration) {parent id : ObjectId} {m m' : Module},
    m.declare parent d = (.ok id, m') → d.isReadable = true
  | .classDef name body _, parent, id, m, m', h => by
      simp only [declare] at h
      split at h
      · rename_i hbody
        exact areReadable_of_declareBody body hbody
      · simp at h
  | .method method, parent, id, m, m', h => by
      rw [declare] at h
      cases hobject : m.methodObject parent method with
      | ok o => exact hasReadableHeader_of_methodObject hobject
      | error e => simp [hobject, addResult] at h
  | .field _, _, _, _, _, _ => rfl

/-- Declarations that are declared without fault can be printed. -/
theorem areReadable_of_declareBody : ∀ (ds : List Declaration) {id : ObjectId} {u : Unit}
    {m m' : Module}, m.declareBody id ds = (.ok u, m') → areReadable ds = true
  | [], _, _, _, _, _ => rfl
  | d :: rest, id, u, m, m', h => by
      rw [declareBody] at h
      split at h
      · simp at h
      · split at h
        · rename_i hd
          rw [areReadable, isReadable_of_declare d hd, areReadable_of_declareBody rest h]
          rfl
        · simp at h

end

/-- A program that compiles can be printed. -/
theorem areReadable_of_analyze {c : Class} {m : Module} (h : analyze c = .ok m) :
    areReadable c.body = true := by
  rw [analyze] at h
  split at h
  · rename_i hbody
    exact areReadable_of_declareBody c.body hbody
  · simp at h

end Module

/-! ## The text of a program that compiles -/

/-- A program that compiles is printed as a text that is parsed to the same tree, apart from places,
compiles to the same objects, and is printed as itself. -/
theorem Source.analyze_render {s : Source} {c : Class} {m : Module} (hparse : s.parse = .ok c)
    (hanalyze : Module.analyze c = .ok m) (name : String) :
    ∃ again, (Source.ofText name c.render).parse = .ok again ∧ again.bare = c.bare ∧
      Module.analyze again = .ok m ∧ again.render = c.render := by
  have hc : c.nested? [] = some c := rfl
  have hprinted : c.bare = ⟨Class.moduleName,
      if c.isModule then bareDeclarations c.body else [c.toDeclaration.bare], .first⟩ := by
    rw [Class.bare, Source.isModule_of_parse hparse, if_pos rfl, Source.name_of_parse hparse]
  obtain ⟨again, hagain, hbare⟩ :=
    (Source.parse_render hparse hc name).1 (Module.areReadable_of_analyze hanalyze)
  have hbare : again.bare = c.bare := hbare.trans hprinted.symm
  -- Objects and text are those of the tree without places, which both trees share.
  refine ⟨again, hagain, hbare, ?_, ?_⟩
  · refine eq_ok_of_toOption ?_
    rw [← Module.toOption_analyze_bare, hbare, Module.toOption_analyze_bare, hanalyze]
    rfl
  · rw [← Class.render_bare, hbare, Class.render_bare]

/-- A program with a class, a field and a method compiles and is printed. -/
theorem Source.analyze_render_program : ∃ c m again,
    (Source.ofText "in" "class a\nend\nb: a\nmethod m(x: a): a\nret x + 1\nend\n").parse = .ok c ∧
      Module.analyze c = .ok m ∧
      c.render = "class a\nend\nb: a\nmethod m(x: a): a\n  ret x.__add__(1)\nend\n" ∧
      m = ⟨#[.ofClass "__module__" none ⟨[("a", 1), ("b", 2), ("m", 3)]⟩,
        .ofClass "a" (some 0) ⟨[]⟩, .ofField "b" 0 1, .ofMethod "m" 0 [("x", 1)] (some 1)]⟩ ∧
      (Source.ofText "out" c.render).parse = .ok again ∧ again.bare = c.bare ∧
      Module.analyze again = .ok m ∧ again.render = c.render := by
  have hsome : ((Source.ofText "in"
      "class a\nend\nb: a\nmethod m(x: a): a\nret x + 1\nend\n").parse.toOption.bind
        fun c => (Module.analyze c).toOption.map fun m => (m, c.render)) =
      some (⟨#[.ofClass "__module__" none ⟨[("a", 1), ("b", 2), ("m", 3)]⟩,
        .ofClass "a" (some 0) ⟨[]⟩, .ofField "b" 0 1, .ofMethod "m" 0 [("x", 1)] (some 1)]⟩,
        "class a\nend\nb: a\nmethod m(x: a): a\n  ret x.__add__(1)\nend\n") := by
    decide +kernel
  obtain ⟨c, hc, hm⟩ := Option.bind_eq_some_iff.1 hsome
  obtain ⟨m, hm, hvalues⟩ := Option.map_eq_some_iff.1 hm
  obtain ⟨hobjects, hprinted⟩ := Prod.mk.inj hvalues
  have hparse := eq_ok_of_toOption hc
  have hanalyze := eq_ok_of_toOption hm
  obtain ⟨again, hagain⟩ := Source.analyze_render hparse hanalyze "out"
  exact ⟨c, m, again, hparse, hanalyze, hprinted, hobjects, hagain⟩

end Bucket
