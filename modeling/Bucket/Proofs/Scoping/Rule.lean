/-
# The rule for names

Which class a type stands for, said of the tree alone. A name is searched in the bodies around a
declaration, from the innermost outward, and in each of them only among the declarations that are
complete before this one begins. A tree is well scoped when no body declares a name twice and every
type is a plain name that leads to a class. The main fact is that a tree is well scoped exactly when
no declaration has a fault (`wellScoped_iff`).
-/
import Bucket.Diagnostic
import Bucket.Module.Object
import Bucket.Proofs.Scoping.Place

namespace Bucket

/-- The types that a declaration names itself: those of the arguments, then that of the result, or
that of the field. -/
def Declaration.types : Declaration → List Expression
  | classDef _ _ _ => []
  | method m => m.arguments.map (·.type) ++ m.returns.toList
  | field f => [f.type]

namespace Class

/-! ## What a name leads to -/

/-- The declarations in the same body that are complete before the one at a place begins. -/
def before (c : Class) : Place → List Declaration
  | [] => []
  | i :: outer => (c.bodyAt outer).take i

/-- The place of the declaration that a name leads to from the declaration at a place. -/
def resolve (c : Class) (name : String) : Place → Option Place
  | [] => none
  | i :: outer =>
      match (c.before (i :: outer)).findIdx? (·.name == name) with
      | some j => some (j :: outer)
      | none => c.resolve name outer

/-- Whether a type, where the declaration at a place names it, stands for the class at another
place. -/
def Means (c : Class) (place : Place) (type : Expression) (target : Place) : Prop :=
  ∃ name, type.name? = some name ∧ c.resolve name place = some target ∧
    (c.declaration? target).any Declaration.isClass

/-- Whether a tree obeys the rule for names. -/
structure WellScoped (c : Class) : Prop where
  /-- No body declares a name twice. -/
  names_nodup : ∀ place, ((c.bodyAt place).map Declaration.name).Nodup
  /-- Every type stands for a class. -/
  types_mean : ∀ place d, c.declaration? place = some d → ∀ type ∈ d.types,
    ∃ target, c.Means place type target

/-! ## Faults -/

/-- The fault of a type that the declaration at a place names, if it has one. -/
def typeFault? (c : Class) (place : Place) (type : Expression) : Option Diagnostic :=
  match type.name? with
  | none => some (.semantic .unsupportedType type.span.start)
  | some name =>
      match c.resolve name place with
      | none => some (.semantic (.unknownName name) type.span.start)
      | some target =>
          if (c.declaration? target).any Declaration.isClass then none
          else some (.semantic (.notAClass name) type.span.start)

/-- The fault of the declaration at a place, if it has one: first that its name is taken, then what
is wrong with the first of its types that is not right. -/
def fault? (c : Class) (place : Place) : Option Diagnostic :=
  match c.declaration? place with
  | none => none
  | some d =>
      if d.name ∈ (c.before place).map Declaration.name then
        some (.semantic (.redefinition d.name) d.span.start)
      else d.types.findSome? (c.typeFault? place)

/-- The fault of a type is one of its name, and is told where the type begins. -/
theorem exists_of_typeFault? {c : Class} {place : Place} {type : Expression} {e : Diagnostic}
    (h : c.typeFault? place type = some e) : ∃ fault, e = .semantic fault type.span.start := by
  unfold typeFault? at h
  split at h
  · exact ⟨_, (Option.some.inj h).symm⟩
  · split at h
    · exact ⟨_, (Option.some.inj h).symm⟩
    · split at h
      · cases h
      · exact ⟨_, (Option.some.inj h).symm⟩

/-- The fault of a declaration is one of its names, and is told where the declaration begins or one of
its types does. -/
theorem exists_of_fault? {c : Class} {place : Place} {e : Diagnostic} (h : c.fault? place = some e) :
    ∃ d fault p, c.declaration? place = some d ∧ e = .semantic fault p ∧
      (p = d.span.start ∨ ∃ type ∈ d.types, p = type.span.start) := by
  unfold fault? at h
  split at h
  · cases h
  · rename_i d hd
    split at h
    · exact ⟨d, _, _, hd, (Option.some.inj h).symm, .inl rfl⟩
    · obtain ⟨type, htype, hfault⟩ := List.exists_of_findSome?_eq_some h
      obtain ⟨fault, rfl⟩ := exists_of_typeFault? hfault
      exact ⟨d, fault, _, hd, rfl, .inr ⟨type, htype, rfl⟩⟩

/-- A type without a fault stands for a class. -/
theorem typeFault?_eq_none_iff {c : Class} {place : Place} {type : Expression} :
    c.typeFault? place type = none ↔ ∃ target, c.Means place type target := by
  unfold typeFault? Means
  split
  · rename_i h
    simp [h]
  · rename_i name h
    split
    · rename_i hr
      simp [h, hr]
    · rename_i target hr
      simp [h, hr]

/-- Names that are never among those before them are all different. -/
theorem nodup_iff_not_mem_take {α : Type} {xs : List α} :
    xs.Nodup ↔ ∀ i x, xs[i]? = some x → x ∉ xs.take i := by
  constructor
  · intro h i x hx hmem
    obtain ⟨j, hj, hjx⟩ := List.mem_take_iff_getElem.1 hmem
    obtain ⟨hi, rfl⟩ := List.getElem?_eq_some_iff.1 hx
    have := (h.getElem_inj_iff).1 hjx
    omega
  · intro h
    rw [List.nodup_iff_pairwise_ne, List.pairwise_iff_getElem]
    intro i j hi hj hij heq
    refine h j xs[j] (List.getElem?_eq_getElem hj) ?_
    exact List.mem_take_iff_getElem.2 ⟨i, by omega, heq⟩

/-- A tree obeys the rule for names when no declaration in it has a fault. -/
theorem wellScoped_iff {c : Class} : c.WellScoped ↔ ∀ place ∈ c.places, c.fault? place = none := by
  constructor
  · -- A name that is taken would stand twice among the names of its body.
    intro h place _
    unfold fault?
    split
    · rfl
    · rename_i d hd
      have hnot : d.name ∉ (c.before place).map Declaration.name := by
        cases place with
        | nil => simp [before]
        | cons i outer =>
            have hnodup := h.names_nodup outer
            rw [nodup_iff_not_mem_take] at hnodup
            have := hnodup i d.name (by rw [List.getElem?_map, ← declaration?_cons, hd]; rfl)
            rwa [before, List.map_take]
      rw [if_neg hnot, List.findSome?_eq_none_iff]
      exact fun type htype => typeFault?_eq_none_iff.2 (h.types_mean place d hd type htype)
  · -- The whole class has no place in the list, and neither a name that is taken nor types.
    intro h
    have hfault : ∀ place d, c.declaration? place = some d →
        d.name ∉ (c.before place).map Declaration.name ∧
          ∀ type ∈ d.types, c.typeFault? place type = none := by
      intro place d hd
      cases place with
      | nil =>
          simp only [declaration?, Option.some.injEq] at hd
          subst hd
          simp [before, toDeclaration, Declaration.types]
      | cons i outer =>
          have := h _ (mem_places hd)
          simp only [fault?, hd] at this
          split at this
          · simp at this
          · rename_i hnot
            exact ⟨hnot, List.findSome?_eq_none_iff.1 this⟩
    constructor
    · intro place
      rw [nodup_iff_not_mem_take]
      intro i name hname
      rw [List.getElem?_map, ← declaration?_cons] at hname
      obtain ⟨d, hd, rfl⟩ := Option.map_eq_some_iff.1 hname
      have hnot := (hfault (i :: place) d hd).1
      rwa [before, List.map_take] at hnot
    · intro place d hd type htype
      exact typeFault?_eq_none_iff.1 ((hfault place d hd).2 type htype)

end Class

end Bucket
