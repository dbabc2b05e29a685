/-
# How a module grows

Whatever is declared, with or without a fault, a module changes in two ways only (`Module.Step`): an
object is added in a class that is being declared, and a complete object is bound to its name in the
class around it. What was there before is not touched but for the names of the class whose body is
declared (`Module.get?_declare`, `Module.get?_declareBody`).
-/
import Bucket.Module.Declaring
import Mathlib.Logic.Relation

namespace Bucket

/-! ## Objects -/

namespace Object

/-- The classes that an object names as types: those of the arguments, then that of the result, or
that of the field. -/
def types : Object → List ObjectId
  | ofClass _ _ _ => []
  | ofMethod _ _ arguments returns => arguments.map Prod.snd ++ returns.toList
  | ofField _ _ type => [type]

/-- The names that an object knows, each with the place of what it stands for. -/
def entries : Object → List (String × ObjectId)
  | ofClass _ _ scope => scope.bindings
  | _ => []

/-- The places that an object refers to: of the class around it, of its types and of what it knows by
name. -/
def references (o : Object) : List ObjectId :=
  o.parent?.toList ++ o.types ++ o.entries.map Prod.snd

variable {o : Object} {name : String} {id : ObjectId}

@[simp] theorem name_bind : (o.bind name id).name = o.name := by
  cases o <;> rfl

@[simp] theorem parent?_bind : (o.bind name id).parent? = o.parent? := by
  cases o <;> rfl

@[simp] theorem types_bind : (o.bind name id).types = o.types := by
  cases o <;> rfl

@[simp] theorem isClass_bind : (o.bind name id).isClass = o.isClass := by
  cases o <;> rfl

/-- A class that a name is added to knows that name as well. -/
theorem entries_bind (h : o.isClass = true) :
    (o.bind name id).entries = o.entries ++ [(name, id)] := by
  cases o with
  | ofClass n parent scope => rfl
  | ofMethod n parent arguments returns => cases h
  | ofField n parent type => cases h

/-- What a name leads to is among the entries. -/
theorem mem_entries_of_member? (h : o.member? name = some id) : (name, id) ∈ o.entries := by
  cases o with
  | ofClass n parent scope =>
      obtain ⟨before, after, hbindings, -⟩ := List.lookup_eq_some_iff.1 h
      rw [entries, hbindings]
      simp
  | ofMethod n parent arguments returns => cases h
  | ofField n parent type => cases h

/-- A name that leads nowhere has no entry. -/
theorem not_mem_names_of_member? (h : o.member? name = none) :
    name ∉ o.entries.map Prod.fst := by
  intro hmem
  obtain ⟨⟨n, i⟩, hentry, rfl⟩ := List.mem_map.1 hmem
  cases o with
  | ofClass n' parent scope =>
      have hne := List.lookup_eq_none_iff.1 h _ hentry
      simp at hne
  | ofMethod n' parent arguments returns => cases hentry
  | ofField n' parent type => cases hentry

/-- Only a class knows names. -/
theorem isClass_of_mem_entries (h : (name, id) ∈ o.entries) : o.isClass = true := by
  cases o with
  | ofClass n parent scope => rfl
  | ofMethod n parent arguments returns => cases h
  | ofField n parent type => cases h

end Object

namespace Module

/-! ## What a module holds -/

/-- Whether there is a class at a place. -/
def ClassAt (m : Module) (id : ObjectId) : Prop := ∃ o, m.get? id = some o ∧ o.isClass = true

/-- Whether some class knows the object at a place by a name. -/
def Bound (m : Module) (id : ObjectId) : Prop :=
  ∃ scope o name, m.get? scope = some o ∧ (name, id) ∈ o.entries

/-- Whether a class lies around an object, directly or further outward. -/
inductive Encloses (m : Module) : ObjectId → ObjectId → Prop where
  | parent {id outer : ObjectId} {o : Object} :
      m.get? id = some o → o.parent? = some outer → Encloses m outer id
  | further {id inner outer : ObjectId} {o : Object} :
      m.get? id = some o → o.parent? = some inner → Encloses m outer inner → Encloses m outer id

/-- Whether the body of a class may be declared: no name leads to the class or to one around it. -/
structure Open (m : Module) (id : ObjectId) : Prop where
  classAt : m.ClassAt id
  not_bound : ¬ m.Bound id
  outer_not_bound : ∀ outer, m.Encloses outer id → ¬ m.Bound outer

/-- Whether an object is what a declaration in a class adds: it has the name of the declaration, lies
in the class, knows no names, and its types are classes that some name leads to. -/
structure Adds (m : Module) (parent : ObjectId) (name : String) (o : Object) : Prop where
  name_eq : o.name = name
  parent?_eq : o.parent? = some parent
  entries_eq : o.entries = []
  types_found : ∀ type ∈ o.types, m.ClassAt type ∧ m.Bound type

/-- One change of a module. -/
inductive Step : Module → Module → Prop where
  /-- The object of a declaration is added in a class that is being declared. -/
  | add {m : Module} {o : Object} {parent : ObjectId} {name : String} :
      m.Open parent → m.Adds parent name o → Step m (m.add o).2
  /-- An object is bound to its own name, which is not taken, in the class around it. -/
  | bind {m : Module} {scope id : ObjectId} {o o' : Object} :
      m.get? scope = some o → o.isClass = true → o.member? o'.name = none →
      m.get? id = some o' → o'.parent? = some scope → Step m (m.bind scope o'.name id)

/-- Any number of changes. -/
def Steps : Module → Module → Prop := Relation.ReflTransGen Step

/-! ## Reading a changed module -/

variable {m : Module} {scope child id : ObjectId} {name : String} {o o' : Object}

theorem lt_size_of_get? (h : m.get? id = some o) : id < m.size :=
  (Array.getElem?_eq_some_iff.1 h).1

theorem exists_get? (h : id < m.size) : ∃ o, m.get? id = some o :=
  ⟨m.objects[id], Array.getElem?_eq_getElem h⟩

theorem get?_add_size (o : Object) (m : Module) : (m.add o).2.get? m.size = some o := by
  rw [get?_add, if_pos rfl]

/-- What was found is found after an object is added. -/
theorem get?_add_of_some (h : m.get? id = some o') : (m.add o).2.get? id = some o' := by
  have hlt := lt_size_of_get? h
  rw [get?_add, if_neg (Nat.ne_of_lt hlt), h]

/-- What is found after an object is added was found before, or is that object. -/
theorem get?_add_cases (h : (m.add o).2.get? id = some o') :
    m.get? id = some o' ∨ id = m.size ∧ o' = o := by
  rw [get?_add] at h
  split at h
  case isTrue hid => exact .inr ⟨hid, (Option.some.inj h).symm⟩
  case isFalse => exact .inl h

/-- What was found is found after a name is bound, though it may know that name. -/
theorem get?_bind_of_some (h : m.get? id = some o) :
    (m.bind scope name child).get? id =
      some (if scope = id then o.bind name child else o) := by
  rw [get?_bind, h]
  split <;> rfl

/-- What is found after a name is bound was found before, but for that name. -/
theorem get?_bind_cases (h : (m.bind scope name child).get? id = some o') :
    ∃ o, m.get? id = some o ∧ o' = if scope = id then o.bind name child else o := by
  rw [get?_bind] at h
  split at h
  case isTrue hid =>
    obtain ⟨o, ho, rfl⟩ := Option.map_eq_some_iff.1 h
    exact ⟨o, ho, by rw [if_pos hid]⟩
  case isFalse hid => exact ⟨o', h, by rw [if_neg hid]⟩

/-- Binding a name leaves all of an object but its entries. -/
theorem exists_get?_of_bind (h : (m.bind scope name child).get? id = some o') :
    ∃ o, m.get? id = some o ∧ o'.name = o.name ∧ o'.parent? = o.parent? ∧ o'.types = o.types ∧
      o'.isClass = o.isClass := by
  obtain ⟨o, ho, rfl⟩ := get?_bind_cases h
  refine ⟨o, ho, ?_⟩
  split <;> simp

theorem exists_bind_of_get? (scope child : ObjectId) (name : String) (h : m.get? id = some o) :
    ∃ o', (m.bind scope name child).get? id = some o' ∧ o'.name = o.name ∧
      o'.parent? = o.parent? ∧ o'.types = o.types ∧ o'.isClass = o.isClass := by
  refine ⟨_, get?_bind_of_some h, ?_⟩
  split <;> simp

theorem ClassAt.add (h : m.ClassAt id) : (m.add o).2.ClassAt id := by
  obtain ⟨o', ho', hclass⟩ := h
  exact ⟨o', get?_add_of_some ho', hclass⟩

theorem ClassAt.bind (h : m.ClassAt id) : (m.bind scope name child).ClassAt id := by
  obtain ⟨o, ho, hclass⟩ := h
  obtain ⟨o', ho', -, -, -, hclass'⟩ := exists_bind_of_get? scope child name ho
  exact ⟨o', ho', hclass'.trans hclass⟩

theorem Bound.add (h : m.Bound id) : (m.add o).2.Bound id := by
  obtain ⟨scope, o', name, ho', hentry⟩ := h
  exact ⟨scope, o', name, get?_add_of_some ho', hentry⟩

/-- An object that knows no names binds nothing. -/
theorem Bound.of_add (ho : o.entries = []) (h : (m.add o).2.Bound id) : m.Bound id := by
  obtain ⟨scope, o', name, ho', hentry⟩ := h
  rcases get?_add_cases ho' with ho' | ⟨-, rfl⟩
  · exact ⟨scope, o', name, ho', hentry⟩
  · rw [ho] at hentry
    cases hentry

/-- An entry after a name is bound was there before, or is that of the name. -/
theorem mem_entries_of_bind (h : (m.bind scope name child).get? id = some o')
    {n : String} {i : ObjectId} (hentry : (n, i) ∈ o'.entries) :
    ∃ o, m.get? id = some o ∧ ((n, i) ∈ o.entries ∨ id = scope ∧ n = name ∧ i = child) := by
  obtain ⟨o, ho, rfl⟩ := get?_bind_cases h
  refine ⟨o, ho, ?_⟩
  split at hentry
  case isTrue hid =>
    have hclass := Object.isClass_of_mem_entries hentry
    rw [Object.isClass_bind] at hclass
    rw [Object.entries_bind hclass, List.mem_append, List.mem_singleton, Prod.mk.injEq] at hentry
    exact hentry.imp_right fun h => ⟨hid.symm, h⟩
  case isFalse => exact .inl hentry

theorem Bound.bind (h : m.Bound id) : (m.bind scope name child).Bound id := by
  obtain ⟨c, o, n, ho, hentry⟩ := h
  refine ⟨c, _, n, get?_bind_of_some ho, ?_⟩
  split
  case isTrue =>
    rw [Object.entries_bind (Object.isClass_of_mem_entries hentry)]
    exact List.mem_append_left _ hentry
  case isFalse => exact hentry

/-- Binding a name binds one object. -/
theorem Bound.of_bind (h : (m.bind scope name child).Bound id) : m.Bound id ∨ id = child := by
  obtain ⟨c, o', n, ho', hentry⟩ := h
  obtain ⟨o, ho, hentry | ⟨-, -, hid⟩⟩ := mem_entries_of_bind ho' hentry
  · exact .inl ⟨c, o, n, ho, hentry⟩
  · exact .inr hid

/-- Binding a name moves no object to another class. -/
theorem Encloses.of_bind {outer : ObjectId} (h : (m.bind scope name child).Encloses outer id) :
    m.Encloses outer id := by
  induction h with
  | parent ho' hparent =>
      obtain ⟨o, ho, -, hsame, -⟩ := exists_get?_of_bind ho'
      exact .parent ho (hsame ▸ hparent)
  | further ho' hparent _ ih =>
      obtain ⟨o, ho, -, hsame, -⟩ := exists_get?_of_bind ho'
      exact .further ho (hsame ▸ hparent) ih

/-! ## Bodies one after the other -/

/-- A body that is the rest of another one is declared where that left off, unless there was a
fault. -/
theorem declareBody_append (id : ObjectId) (m : Module) (ds es : List Declaration) :
    m.declareBody id (ds ++ es) =
      match m.declareBody id ds with
      | (.ok _, m') => m'.declareBody id es
      | (.error e, m') => (.error e, m') := by
  induction ds generalizing m with
  | nil => rfl
  | cons d rest ih =>
      rw [List.cons_append, declareBody, declareBody]
      split
      · rfl
      · split
        · exact ih _
        · rfl

/-! ## What declaring leaves as it was -/

/-- Adding an object, or finding a fault in it, keeps all that was there. -/
theorem get?_addResult (m : Module) (result : Except Diagnostic Object) (h : m.get? id = some o) :
    (m.addResult result).2.get? id = some o := by
  cases result with
  | ok o' => exact get?_add_of_some h
  | error d => exact h

mutual

/-- Declaring a declaration in a class keeps all that was there, even that class: its name is bound
only when it is complete. -/
theorem get?_declare {id : ObjectId} {o : Object} (parent : ObjectId) (m : Module) :
    (d : Declaration) → m.get? id = some o → (m.declare parent d).2.get? id = some o
  | .classDef name body span, h => by
      have hne : id ≠ m.size := Nat.ne_of_lt (lt_size_of_get? h)
      have hadd : (m.add (.ofClass name (some parent) .empty)).2.get? id = some o :=
        get?_add_of_some h
      have hbody := get?_declareBody m.size (m.add (.ofClass name (some parent) .empty)).2 body hne
        hadd
      rw [declare]
      simp only [fst_add]
      split <;> rename_i heq <;> rwa [heq] at hbody
  | .method method, h => get?_addResult m _ h
  | .field field, h => get?_addResult m _ h

/-- Declaring a body keeps all that was there but for the class with that body. -/
theorem get?_declareBody {id : ObjectId} {o : Object} (scope : ObjectId) (m : Module) :
    (ds : List Declaration) → id ≠ scope → m.get? id = some o →
      (m.declareBody scope ds).2.get? id = some o
  | [], _, h => h
  | d :: rest, hne, h => by
      have hd := get?_declare scope m d h
      rw [declareBody]
      split
      · exact h
      · split
        · rename_i child m' heq
          rw [heq] at hd
          refine get?_declareBody scope (m'.bind scope d.name child) rest hne ?_
          rw [get?_bind_of_some hd, if_neg (Ne.symm hne)]
        · rename_i e m' heq
          rwa [heq] at hd

end

/-- A name that a class does not declare is free in it. -/
theorem member?_of_not_declares (h : ¬ m.declares id name) (ho : m.get? id = some o) :
    o.member? name = none := by
  rwa [declares, ho, Option.bind_some, Option.isSome_iff_ne_none, Decidable.not_not] at h

/-- A class gains names while its body is declared, and none that it knew before. -/
theorem exists_added_declareBody (scope : ObjectId) (m : Module) (ds : List Declaration)
    {parent : Option ObjectId} {s : Scope} (h : m.get? scope = some (.ofClass name parent s)) :
    ∃ added, (m.declareBody scope ds).2.get? scope =
        some (.ofClass name parent ⟨s.bindings ++ added⟩) ∧
      ∀ b ∈ added, s.get? b.1 = none := by
  have hsame : s = ⟨s.bindings ++ []⟩ := by rw [List.append_nil]
  induction ds generalizing m s with
  | nil => exact ⟨[], hsame ▸ h, by simp⟩
  | cons d rest ih =>
      have hd := get?_declare scope m d h
      rw [declareBody]
      split
      case isTrue => exact ⟨[], hsame ▸ h, by simp⟩
      case isFalse hfree =>
        have hname : s.get? d.name = none := member?_of_not_declares hfree h
        split
        · rename_i child m₁ heq
          rw [heq] at hd
          have hbound : (m₁.bind scope d.name child).get? scope =
              some (.ofClass name parent (s.bind d.name child)) := by
            rw [get?_bind_of_some hd, if_pos rfl]
            rfl
          obtain ⟨added, hadded, hfresh⟩ := ih (m₁.bind scope d.name child) hbound (by simp)
          refine ⟨(d.name, child) :: added, by simpa [Scope.bind] using hadded, ?_⟩
          -- What is free behind the new name was free in front of it.
          refine List.forall_mem_cons.2 ⟨hname, fun b hb => ?_⟩
          have hfree := hfresh b hb
          rw [Scope.get?_bind] at hfree
          exact (Option.or_eq_none_iff.1 hfree).1
        · rename_i e m₁ heq
          rw [heq] at hd
          exact ⟨[], hsame ▸ hd, by simp⟩

/-! ## Types -/

/-- What a name leads to is bound. -/
theorem bound_of_lookup (h : m.lookup scope name = some id) : m.Bound id := by
  fun_induction lookup m scope name with
  | case1 => cases h
  | case2 scope o ho found hmember =>
      obtain rfl := Option.some.inj h
      exact ⟨scope, o, name, ho, Object.mem_entries_of_member? hmember⟩
  | case3 _ _ _ _ _ _ _ ih => exact ih h
  | case4 => cases h
  | case5 => cases h

/-- A type stands for a class that some name leads to. -/
theorem classAt_of_lookupClass {type : Expression} (h : m.lookupClass scope type = .ok id) :
    m.ClassAt id ∧ m.Bound id := by
  unfold lookupClass at h
  split at h
  · cases h
  · split at h
    · cases h
    · rename_i name _ found hfound
      split at h
      case isTrue hclass =>
        obtain rfl := Except.ok.inj h
        exact ⟨(Option.any_eq_true _ _).1 hclass, bound_of_lookup hfound⟩
      case isFalse => cases h

theorem classAt_of_lookupArguments {as : List Argument} {types : List (String × ObjectId)}
    (h : m.lookupArguments scope as = .ok types) :
    ∀ type ∈ types.map Prod.snd, m.ClassAt type ∧ m.Bound type := by
  induction as generalizing types with
  | nil =>
      obtain rfl := Except.ok.inj h
      simp
  | cons a rest ih =>
      obtain ⟨first, hfirst, h⟩ := exists_of_bind_ok h
      obtain ⟨others, hothers, h⟩ := exists_of_bind_ok h
      obtain rfl := Except.ok.inj h
      intro type htype
      rcases List.mem_cons.1 htype with rfl | htype
      · exact classAt_of_lookupClass hfirst
      · exact ih hothers type htype

/-- The type of a result that is found is the class that the type stands for. -/
theorem exists_of_lookupReturns {type : Expression} {found : Option ObjectId}
    (h : m.lookupReturns scope (some type) = .ok found) :
    ∃ id, m.lookupClass scope type = .ok id ∧ found = some id := by
  rw [lookupReturns] at h
  cases hclass : m.lookupClass scope type with
  | ok id =>
      rw [hclass] at h
      exact ⟨id, rfl, (Except.ok.inj h).symm⟩
  | error d =>
      rw [hclass] at h
      cases h

theorem classAt_of_lookupReturns {returns : Option Expression} {found : Option ObjectId}
    (h : m.lookupReturns scope returns = .ok found) :
    ∀ type ∈ found, m.ClassAt type ∧ m.Bound type := by
  cases returns with
  | none =>
      obtain rfl := Except.ok.inj h
      simp
  | some e =>
      obtain ⟨id, hclass, rfl⟩ := exists_of_lookupReturns h
      rintro type ⟨⟩
      exact classAt_of_lookupClass hclass

theorem adds_of_methodObject {parent : ObjectId} {method : Method}
    (h : m.methodObject parent method = .ok o) : m.Adds parent method.name o := by
  obtain ⟨arguments, harguments, h⟩ := exists_of_bind_ok h
  obtain ⟨returns, hreturns, h⟩ := exists_of_bind_ok h
  obtain rfl := Except.ok.inj h
  refine ⟨rfl, rfl, rfl, fun type htype => ?_⟩
  rcases List.mem_append.1 htype with htype | htype
  · exact classAt_of_lookupArguments harguments type htype
  · exact classAt_of_lookupReturns hreturns type (Option.mem_toList.1 htype)

theorem adds_of_fieldObject {parent : ObjectId} {field : Field}
    (h : m.fieldObject parent field = .ok o) : m.Adds parent field.name o := by
  obtain ⟨type, htype, h⟩ := exists_of_bind_ok h
  obtain rfl := Except.ok.inj h
  refine ⟨rfl, rfl, rfl, fun t ht => ?_⟩
  obtain rfl := List.mem_singleton.1 ht
  exact classAt_of_lookupClass htype

theorem adds_ofClass (m : Module) (parent : ObjectId) (name : String) :
    m.Adds parent name (.ofClass name (some parent) .empty) :=
  ⟨rfl, rfl, rfl, by simp [Object.types]⟩

end Module

end Bucket
