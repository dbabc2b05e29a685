/-
# Types go round in no circle

A class mentions the classes that its fields, the arguments of its methods and the results of its
methods have as types. Places alone do not tell why no class leads back to itself that way: a class may
mention one that is declared inside it, which lies behind it. But a class that mentions more while its
body is declared is not bound to its name yet, and only classes that are bound are ever mentioned. So
the mentions that are added start where none of them arrives (`Module.not_mentions_itself`).
-/
import Bucket.Proofs.Scoping.Invariant

namespace Bucket.Module

/-- Whether a class declares a field, or a method with an argument or a result, of a type. -/
def Mentions (m : Module) (scope type : ObjectId) : Prop :=
  ∃ id o, m.get? id = some o ∧ o.parent? = some scope ∧ type ∈ o.types

/-- Whether no class leads back to itself through the types that are mentioned. -/
def Acyclic (m : Module) : Prop := ∀ id, ¬ Relation.TransGen m.Mentions id id

section

variable {m m' : Module} {id scope parent child type : ObjectId} {name : String} {o : Object}

/-- Some name leads to every class that is mentioned. -/
theorem Mentions.bound (hm : m.WellFormed) (h : m.Mentions scope type) : m.Bound type := by
  obtain ⟨id, o, ho, -, htype⟩ := h
  exact (hm.type_class id o type ho htype).2.2.1

/-- Binding a name mentions nothing. -/
theorem Mentions.of_bind (h : (m.bind parent name child).Mentions scope type) :
    m.Mentions scope type := by
  obtain ⟨id, o, ho, hparent, htype⟩ := h
  obtain ⟨o', ho', -, hparent', htypes', -⟩ := exists_get?_of_bind ho
  rw [hparent'] at hparent
  rw [htypes'] at htype
  exact ⟨id, o', ho', hparent, htype⟩

/-- Adding an object makes the class that it lies in mention classes that are bound. -/
theorem Mentions.of_add (ho : m.Adds parent name o) (h : (m.add o).2.Mentions scope type) :
    m.Mentions scope type ∨ scope = parent ∧ m.Bound type := by
  obtain ⟨id, o', ho', hparent, htype⟩ := h
  rcases get?_add_cases ho' with ho' | ⟨-, rfl⟩
  · exact .inl ⟨id, o', ho', hparent, htype⟩
  · have hscope : scope = parent := Option.some.inj (hparent.symm.trans ho.parent?_eq)
    exact .inr ⟨hscope, (ho.types_found type htype).2⟩

namespace Acyclic

theorem bind (h : m.Acyclic) : (m.bind parent name child).Acyclic :=
  fun id hcycle => h id (Relation.TransGen.mono (fun _ _ => Mentions.of_bind) _ _ hcycle)

/-- Adding an object closes no circle: the class that mentions more is mentioned nowhere. -/
theorem add (h : m.Acyclic) (hm : m.WellFormed) (hopen : m.Open parent)
    (ho : m.Adds parent name o) : (m.add o).2.Acyclic := by
  have hunmentioned : ∀ {scope type}, (m.add o).2.Mentions scope type → type ≠ parent := by
    rintro scope type hmention rfl
    rcases hmention.of_add ho with hbefore | ⟨-, hbound⟩
    · exact hopen.not_bound (hbefore.bound hm)
    · exact hopen.not_bound hbound
  have hold : ∀ {scope type}, (m.add o).2.Mentions scope type → scope ≠ parent →
      m.Mentions scope type := fun hmention hne =>
    (hmention.of_add ho).resolve_right fun hnew => hne hnew.1
  -- A way that does not start at that class never comes to it, so it was there before.
  have hway : ∀ {scope type}, Relation.TransGen (m.add o).2.Mentions scope type →
      scope ≠ parent → Relation.TransGen m.Mentions scope type := by
    intro scope type hpath
    induction hpath using Relation.TransGen.head_induction_on with
    | single hmention => exact fun hne => .single (hold hmention hne)
    | head hmention _ ih => exact fun hne => .head (hold hmention hne) (ih (hunmentioned hmention))
  intro id hcycle
  obtain ⟨last, -, hlast⟩ := Relation.TransGen.tail'_iff.1 hcycle
  exact h id (hway hcycle (hunmentioned hlast))

theorem step (h : m.Acyclic) (hm : m.WellFormed) (hstep : Step m m') : m'.Acyclic := by
  cases hstep with
  | add hopen ho => exact h.add hm hopen ho
  | bind => exact h.bind

theorem steps (h : m.Acyclic) (hm : m.WellFormed) (hsteps : Steps m m') : m'.Acyclic := by
  induction hsteps with
  | refl => exact h
  | tail hfirst hstep ih => exact ih.step (hm.steps hfirst) hstep

end Acyclic

/-- Nothing is mentioned while nothing is declared. -/
theorem acyclic_ofClass (c : Class) : (ofClass c).Acyclic := by
  intro id hcycle
  obtain ⟨last, -, i, o, ho, hparent, -⟩ := Relation.TransGen.tail'_iff.1 hcycle
  obtain ⟨hlt, -⟩ := (wellFormed_ofClass c).lt_of_parent? ho hparent
  have hsize : i < 1 := lt_size_of_get? ho
  exact absurd (Nat.lt_of_lt_of_le hlt (Nat.le_of_lt_succ hsize)) (Nat.not_lt_zero last)

/-- Whatever programs were declared, and however that ended, no class leads back to itself through the
types of its fields, arguments and results and of those of the classes that these name. -/
theorem not_mentions_itself (c : Class) (cs : List Class) (id : ObjectId) :
    ¬ Relation.TransGen ((ofClass c).initAll cs).Mentions id id :=
  (acyclic_ofClass c).steps (wellFormed_ofClass c) (steps_initAll (wellFormed_ofClass c) cs) id

end

end Bucket.Module
