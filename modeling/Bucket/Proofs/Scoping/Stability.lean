/-
# Names keep what they lead to

Programs that are declared in a module later touch nothing that is there. Only the module itself gains
names, and none that it knew before (`Module.Extends`). So a name that led somewhere leads there for
ever, and one that led nowhere can only be found in the module itself later on
(`Module.lookup_stable`).
-/
import Bucket.Proofs.Scoping.Invariant

namespace Bucket.Module

/-! ## Modules in which more was declared -/

/-- Whether a module holds all that another one does, in the same places and unchanged, but that the
module itself may know more names. -/
structure Extends (m m' : Module) : Prop where
  /-- Behind the module itself all objects stay as they are. -/
  kept : ∀ id o, id ≠ root → m.get? id = some o → m'.get? id = some o
  /-- The module itself only gains names that it did not know. -/
  gained : ∀ name parent scope, m.get? root = some (.ofClass name parent scope) →
    ∃ added, m'.get? root = some (.ofClass name parent ⟨scope.bindings ++ added⟩) ∧
      ∀ b ∈ added, scope.get? b.1 = none

section

variable {m m' m'' : Module} {scope id found : ObjectId} {name : String} {o : Object}

/-- The search for a name ends in a class that lies in no other one. -/
theorem lookup_of_no_parent (ho : m.get? id = some o) (hparent : o.parent? = none) :
    m.lookup id name = o.member? name := by
  rw [lookup, ho]
  cases hmember : o.member? name <;> simp only [hmember, hparent]

namespace Extends

theorem refl (m : Module) : m.Extends m :=
  ⟨fun _ _ _ h => h, fun _ _ scope h => ⟨[], by rwa [List.append_nil], by simp⟩⟩

theorem trans (h : m.Extends m') (h' : m'.Extends m'') : m.Extends m'' := by
  constructor
  case kept => exact fun id o hne ho => h'.kept id o hne (h.kept id o hne ho)
  case gained =>
    intro name parent scope hroot
    obtain ⟨added, hroot', hfresh⟩ := h.gained name parent scope hroot
    obtain ⟨added', hroot'', hfresh'⟩ := h'.gained name parent _ hroot'
    refine ⟨added ++ added', by simpa using hroot'', fun b hb => ?_⟩
    rcases List.mem_append.1 hb with hb | hb
    · exact hfresh b hb
    · have hnone := hfresh' b hb
      rw [Scope.get?, List.lookup_append] at hnone
      exact (Option.or_eq_none_iff.1 hnone).1

/-- Declaring a program extends a module, whether or not there is a fault. -/
theorem init (m : Module) (c : Class) : m.Extends (m.init c).2 :=
  ⟨fun _ _ hne ho => get?_declareBody root m c.body hne ho,
    fun _ _ _ hroot => exists_added_declareBody root m c.body hroot⟩

theorem initAll (m : Module) (cs : List Class) : m.Extends (m.initAll cs) := by
  induction cs generalizing m with
  | nil => exact refl m
  | cons c cs ih => exact (init m c).trans (ih (m.init c).2)

/-! ## Looking up -/

/-- What an object knows by a name it knows by that name later on. -/
theorem member? (h : m.Extends m') (ho : m.get? id = some o) (hfound : o.member? name = some found) :
    ∃ o', m'.get? id = some o' ∧ o'.member? name = some found := by
  by_cases hid : id = root
  · subst hid
    cases o with
    | ofClass n parent scope =>
        obtain ⟨added, hroot, -⟩ := h.gained n parent scope ho
        have hscope : scope.bindings.lookup name = some found := hfound
        refine ⟨_, hroot, ?_⟩
        change (scope.bindings ++ added).lookup name = some found
        rw [List.lookup_append, hscope]
        rfl
    | ofMethod n parent arguments returns => cases hfound
    | ofField n parent type => cases hfound
  · exact ⟨o, h.kept id o hid ho, hfound⟩

/-- What a name led to it leads to later on. -/
theorem lookup_eq_some (h : m.Extends m') (hfound : m.lookup id name = some found) :
    m'.lookup id name = some found := by
  -- From the inside outward, as the search goes.
  fun_induction m.lookup id name with
  | case1 => cases hfound
  | case2 id o ho i hmember =>
      obtain rfl := Option.some.inj hfound
      obtain ⟨o', ho', hmember'⟩ := h.member? ho hmember
      rw [lookup, ho']
      simp only [hmember']
  | case3 id o ho outer hparent hmember hlt ih =>
      -- The module itself lies in no class, so this object is another one and was kept.
      have hne : id ≠ root := Nat.ne_of_gt (Nat.lt_of_le_of_lt (Nat.zero_le outer) hlt)
      rw [lookup, h.kept id o hne ho]
      simp only [hmember, hparent, if_pos hlt]
      exact ih hfound
  | case4 => cases hfound
  | case5 => cases hfound

/-- A name that led nowhere is searched for in the module itself later on, and in no class before. -/
theorem lookup_eq_member? (h : m.Extends m') (hm : m.WellFormed) (ho : m.get? id = some o)
    (hnone : m.lookup id name = none) :
    m'.lookup id name = (m'.get? root).bind (·.member? name) := by
  fun_induction m.lookup id name generalizing o with
  | case1 id hid => rw [hid] at ho; cases ho
  | case2 => cases hnone
  | case3 id o' ho' outer hparent hmember hlt ih =>
      have hne : id ≠ root := Nat.ne_of_gt (Nat.lt_of_le_of_lt (Nat.zero_le outer) hlt)
      obtain ⟨-, o₁, ho₁, -⟩ := hm.lt_of_parent? ho' hparent
      rw [lookup, h.kept id o' hne ho']
      simp only [hmember, hparent, if_pos hlt]
      exact ih ho₁ hnone
  | case4 id o' ho' outer hparent hmember hlt =>
      exact absurd (hm.lt_of_parent? ho' hparent).1 hlt
  | case5 id o' ho' hparent hmember =>
      -- Only the module itself lies in no class.
      obtain rfl : id = root := by
        by_contra hne
        obtain ⟨parent, hsome, -⟩ := hm.parent_class id o' ho' hne
        rw [hparent] at hsome
        cases hsome
      obtain ⟨n, s, hroot⟩ := hm.root_class
      obtain ⟨added, hroot', -⟩ := h.gained n none s hroot
      rw [hroot', Option.bind_some]
      exact lookup_of_no_parent hroot' rfl

end Extends

end

/-- Whatever programs were declared in a module, declaring more of them, with or without faults,
changes none of its objects but that the module itself gains names that it did not know. So a name
leads where it led before from wherever it led somewhere. Where it led nowhere, it leads later on to
what the module itself knows by that name, or still nowhere. -/
theorem lookup_stable (c : Class) (cs more : List Class) :
    let m := (ofClass c).initAll cs
    let m' := m.initAll more
    m.Extends m' ∧
    ∀ id < m.size, ∀ name,
      (∀ found, m.lookup id name = some found → m'.lookup id name = some found) ∧
      (m.lookup id name = none → m'.lookup id name = (m'.get? root).bind (·.member? name)) := by
  intro m m'
  have hm : m.WellFormed := wellFormed_initAll c cs
  have hextends : m.Extends m' := .initAll m more
  refine ⟨hextends, fun id hid name => ⟨fun found => hextends.lookup_eq_some, fun hnone => ?_⟩⟩
  obtain ⟨o, ho⟩ := exists_get? hid
  exact hextends.lookup_eq_member? hm ho hnone

end Bucket.Module
