/-
# Printing and parsing

The text of a class, of a whole program or of any class in it, is parsed to that class again, apart
from places. This fails exactly where a method has an argument or a return type that is an
assignment (`Source.parse_render`): such a type stands in parentheses, and is printed without them.
-/
import Bucket.Proofs.Printing.Reading

namespace Bucket

/-! ## Programs -/

/-- A source holds a class with the name of a module. -/
theorem Source.name_of_parse {s : Source} {m : Class} (h : s.parse = .ok m) :
    m.name = Class.moduleName := by
  obtain ⟨e, he⟩ := Source.exists_stop_of_parse h
  have hbare := Source.parse_of_stop he
  rw [h] at hbare
  obtain ⟨state, -, hmodule⟩ := Option.bind_eq_some_iff.1 hbare.symm
  unfold Parser.State.module? at hmodule
  split at hmodule
  · have := congrArg Class.name (Option.some.inj hmodule)
    exact this.symm
  · simp at hmodule

theorem Source.isModule_of_parse {s : Source} {m : Class} (h : s.parse = .ok m) :
    m.isModule = true := by
  rw [Class.isModule, Source.name_of_parse h]
  exact beq_self_eq_true _

/-- The name of a module can be written. -/
theorem isWritable_moduleName : (Token.Kind.identifier Class.moduleName).isWritable = true := by
  decide +kernel

/-- All names and literals of a class in a tree that was read can be written. -/
theorem Source.allWords_nested? {s : Source} {m c : Class} {path : List Nat}
    (hparse : s.parse = .ok m) (hc : m.nested? path = some c) :
    c.toDeclaration.AllWords (·.isWritable = true) := by
  have hm : m.toDeclaration.AllWords (·.isWritable = true) := by
    refine ⟨?_, Source.allWords_of_parse hparse⟩
    rw [Source.name_of_parse hparse]
    exact isWritable_moduleName
  exact Class.allWords_nested? _ hm hc

theorem Class.areReadable_printed (c : Class) : areReadable c.printed = areReadable c.body := by
  rw [printed]
  split
  · rfl
  · simp [areReadable, toDeclaration, Declaration.isReadable]

/-! ## The round trip -/

/-- The text of a class in a tree that was read is parsed to what it was printed from, apart from
places, if no method in it has a type in its first line that is an assignment. Otherwise it cannot
be parsed. -/
theorem Source.parse_render {s : Source} {m c : Class} {path : List Nat}
    (hparse : s.parse = .ok m) (hc : m.nested? path = some c) (name : String) :
    (areReadable c.body = true → ∃ again, (Source.ofText name c.render).parse = .ok again ∧
      again.bare = ⟨Class.moduleName,
        if c.isModule then bareDeclarations c.body else [c.toDeclaration.bare], .first⟩) ∧
    (areReadable c.body = false → ∃ d, (Source.ofText name c.render).parse = .error d) := by
  have hlexes := Class.lexes_render (Source.allWords_nested? hparse hc) name
  have hread := Source.parse_of_lexes hlexes
  rw [Class.readModule?_kinds, Class.areReadable_printed] at hread
  have hprinted : bareDeclarations c.printed =
      if c.isModule then bareDeclarations c.body else [c.toDeclaration.bare] := by
    rw [Class.printed]
    split <;> rfl
  constructor
  · intro hreadable
    rw [hreadable, if_pos rfl, hprinted] at hread
    obtain ⟨again, hagain, hbare⟩ := Option.map_eq_some_iff.1 hread
    exact ⟨again, eq_ok_of_toOption hagain, hbare⟩
  · intro hreadable
    rw [hreadable] at hread
    exact exists_error_of_toOption (Option.map_eq_none_iff.1 hread)

/-- A class inside a program is parsed again from its own text. -/
theorem Source.parse_render_inner : ∃ m c again,
    (Source.ofText "in" "class a\nb: c.d(1)\nend\n").parse = .ok m ∧ m.nested? [0] = some c ∧
      (Source.ofText "out" c.render).parse = .ok again ∧
      again.bare = ⟨Class.moduleName, [c.toDeclaration.bare], .first⟩ := by
  have hclass : ((Source.ofText "in" "class a\nb: c.d(1)\nend\n").parse.toOption.bind
      (·.nested? [0])).map (fun c => (c.isModule, areReadable c.body)) = some (false, true) := by
    decide +kernel
  obtain ⟨c, hc, hvalues⟩ := Option.map_eq_some_iff.1 hclass
  obtain ⟨m, hm, hc⟩ := Option.bind_eq_some_iff.1 hc
  obtain ⟨hmodule, hreadable⟩ := Prod.mk.inj hvalues
  have hparse := eq_ok_of_toOption hm
  obtain ⟨again, hagain, hbare⟩ := (Source.parse_render hparse hc "out").1 hreadable
  refine ⟨m, c, again, hparse, hc, hagain, ?_⟩
  rw [hbare, hmodule]
  rfl

/-- A return type that is an assignment is lost: the text of this program cannot be parsed. -/
theorem Source.not_parse_render : ∃ m,
    (Source.ofText "in" "method m: (a = b)\nend\n").parse = .ok m ∧
      m.render = "method m: a = b\nend\n" ∧
      ∃ d, (Source.ofText "in" m.render).parse = .error d := by
  have hrender : (Source.ofText "in" "method m: (a = b)\nend\n").parse.toOption.map Class.render =
      some "method m: a = b\nend\n" := by
    decide +kernel
  have hfault : (Source.ofText "in" "method m: a = b\nend\n").parse.toOption.isNone = true := by
    decide +kernel
  obtain ⟨m, hm, hrender⟩ := Option.map_eq_some_iff.1 hrender
  refine ⟨m, eq_ok_of_toOption hm, hrender, ?_⟩
  rw [hrender]
  exact exists_error_of_toOption (Option.isNone_iff_eq_none.1 hfault)

end Bucket
