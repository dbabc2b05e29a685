/-
# Well-formed modules

What holds of every module that programs were declared in, with or without faults, one after the
other (`Module.WellFormed`): the objects form a tree of classes below that of the module, names lead
to what was declared under them, and types are classes that were complete before they were named. So
no place that is kept in a module leads outside it, a search for a name is over after a bounded number
of classes, and a name that is bound was free (`Module.initAll_invariant`).
-/
import Bucket.Proofs.Scoping.Growth
import Mathlib.Data.List.Nodup

namespace Bucket.Module

/-! ## The invariant -/

/-- Whether the objects of a module fit together. -/
structure WellFormed (m : Module) : Prop where
  /-- The first object is the class of the module itself, and lies in no other one. -/
  root_class : ∃ name scope, m.get? root = some (.ofClass name none scope)
  /-- Every other object lies in a class in front of it. -/
  parent_class : ∀ id o, m.get? id = some o → id ≠ root →
    ∃ parent, o.parent? = some parent ∧ parent < id ∧ m.ClassAt parent
  /-- A name in a class leads to an object behind the class that has this name and lies in it. -/
  entry_found : ∀ scope o name id, m.get? scope = some o → (name, id) ∈ o.entries →
    scope < id ∧ ∃ o', m.get? id = some o' ∧ o'.name = name ∧ o'.parent? = some scope
  /-- A class knows each of its names once. -/
  names_nodup : ∀ id o, m.get? id = some o → (o.entries.map Prod.fst).Nodup
  /-- A type is a class in front of the object that names it. Some name leads to that class, and it
  does not lie around the object. -/
  type_class : ∀ id o type, m.get? id = some o → type ∈ o.types →
    type < id ∧ m.ClassAt type ∧ m.Bound type ∧ ¬ m.Encloses type id

section

variable {m m' : Module} {id scope parent child : ObjectId} {name : String} {o o' : Object}

theorem ClassAt.lt_size (h : m.ClassAt id) : id < m.size := by
  obtain ⟨o, ho, -⟩ := h
  exact lt_size_of_get? ho

namespace WellFormed

/-- The parent of an object is a class in front of it. -/
theorem lt_of_parent? (hm : m.WellFormed) (ho : m.get? id = some o)
    (hparent : o.parent? = some parent) : parent < id ∧ m.ClassAt parent := by
  have hne : id ≠ root := by
    rintro rfl
    obtain ⟨name, scope, hroot⟩ := hm.root_class
    rw [hroot] at ho
    obtain rfl := Option.some.inj ho
    cases hparent
  obtain ⟨parent', hparent', hlt, hclass⟩ := hm.parent_class id o ho hne
  obtain rfl := Option.some.inj (hparent.symm.trans hparent')
  exact ⟨hlt, hclass⟩

theorem lt_of_encloses (hm : m.WellFormed) (h : m.Encloses scope id) : scope < id := by
  induction h with
  | parent ho hparent => exact (hm.lt_of_parent? ho hparent).1
  | further ho hparent _ ih => exact Nat.lt_trans ih (hm.lt_of_parent? ho hparent).1

theorem lt_size_of_bound (hm : m.WellFormed) (h : m.Bound id) : id < m.size := by
  obtain ⟨scope, o, name, ho, hentry⟩ := h
  obtain ⟨-, o', ho', -⟩ := hm.entry_found scope o name id ho hentry
  exact lt_size_of_get? ho'

/-- No name leads to the module itself, and nothing lies around it. -/
theorem open_root (hm : m.WellFormed) : m.Open root := by
  obtain ⟨name, scope, hroot⟩ := hm.root_class
  refine ⟨⟨_, hroot, rfl⟩, ?_, fun outer houter => ?_⟩
  · rintro ⟨c, o, n, ho, hentry⟩
    exact absurd (hm.entry_found c o n root ho hentry).1 (Nat.not_lt_zero c)
  · exact absurd (hm.lt_of_encloses houter) (Nat.not_lt_zero outer)

end WellFormed

/-! ## Keeping what was there -/

/-- What lies around an object that is kept lay around it before. -/
theorem Encloses.of_keeps (hm : m.WellFormed)
    (hkeeps : ∀ i o, m.get? i = some o → m'.get? i = some o) (h : m'.Encloses scope id) :
    ∀ {o}, m.get? id = some o → m.Encloses scope id := by
  induction h with
  | parent ho' hparent =>
      intro o ho
      obtain rfl := Option.some.inj ((hkeeps _ _ ho).symm.trans ho')
      exact .parent ho hparent
  | further ho' hparent _ ih =>
      intro o ho
      obtain rfl := Option.some.inj ((hkeeps _ _ ho).symm.trans ho')
      obtain ⟨inner, hinner, -⟩ := (hm.lt_of_parent? ho hparent).2
      exact .further ho hparent (ih hinner)

/-- What is kept becomes bound by nothing that is new, since names lead backward only. -/
theorem Bound.of_keeps (hm' : m'.WellFormed)
    (hkeeps : ∀ i o, m.get? i = some o → m'.get? i = some o) (hid : id < m.size)
    (h : m'.Bound id) : m.Bound id := by
  obtain ⟨scope, o', name, ho', hentry⟩ := h
  have hlt := (hm'.entry_found scope o' name id ho' hentry).1
  obtain ⟨o, ho⟩ := exists_get? (Nat.lt_trans hlt hid)
  obtain rfl := Option.some.inj ((hkeeps _ _ ho).symm.trans ho')
  exact ⟨scope, o, name, ho, hentry⟩

/-- A body that may be declared may still be when all that was there is kept. -/
theorem Open.of_keeps (hm : m.WellFormed) (hm' : m'.WellFormed)
    (hkeeps : ∀ i o, m.get? i = some o → m'.get? i = some o) (h : m.Open id) : m'.Open id := by
  obtain ⟨⟨o, ho, hclass⟩, hfree, houter⟩ := h
  have hlt := lt_size_of_get? ho
  refine ⟨⟨o, hkeeps _ _ ho, hclass⟩, ?_, fun outer hencloses hbound => ?_⟩
  · intro hbound
    exact hfree (hbound.of_keeps hm' hkeeps hlt)
  · have hbefore := hencloses.of_keeps hm hkeeps ho
    have hinside : outer < m.size := Nat.lt_trans (hm.lt_of_encloses hbefore) hlt
    exact houter outer hbefore (hbound.of_keeps hm' hkeeps hinside)

/-! ## One change -/

/-- Around an object that is added lie its class and what lies around that. -/
theorem Encloses.of_add (hm : m.WellFormed) (hclass : m.ClassAt parent)
    (ho : o.parent? = some parent) (h : (m.add o).2.Encloses scope m.size) :
    scope = parent ∨ m.Encloses scope parent := by
  have hnew := get?_add_size o m
  obtain ⟨p, hp, -⟩ := hclass
  cases h with
  | parent ho' hparent =>
      obtain rfl := Option.some.inj (hnew.symm.trans ho')
      exact .inl (Option.some.inj (hparent.symm.trans ho))
  | further ho' hparent hencloses =>
      obtain rfl := Option.some.inj (hnew.symm.trans ho')
      obtain rfl := Option.some.inj (hparent.symm.trans ho)
      exact .inr (hencloses.of_keeps hm (fun _ _ => get?_add_of_some) hp)

namespace WellFormed

/-- Adding the object of a declaration keeps the invariant. -/
theorem add (hm : m.WellFormed) (hopen : m.Open parent) (ho : m.Adds parent name o) :
    (m.add o).2.WellFormed := by
  constructor
  case root_class =>
    obtain ⟨n, scope, hroot⟩ := hm.root_class
    exact ⟨n, scope, get?_add_of_some hroot⟩
  case parent_class =>
    intro id o' ho' hne
    rcases get?_add_cases ho' with ho' | ⟨rfl, rfl⟩
    · obtain ⟨p, hp, hlt, hclass⟩ := hm.parent_class id o' ho' hne
      exact ⟨p, hp, hlt, hclass.add⟩
    · exact ⟨parent, ho.parent?_eq, hopen.classAt.lt_size, hopen.classAt.add⟩
  case entry_found =>
    intro scope o' n id ho' hentry
    rcases get?_add_cases ho' with ho' | ⟨-, rfl⟩
    · obtain ⟨hlt, found, hfound, hname, hparent⟩ := hm.entry_found scope o' n id ho' hentry
      exact ⟨hlt, found, get?_add_of_some hfound, hname, hparent⟩
    · rw [ho.entries_eq] at hentry
      cases hentry
  case names_nodup =>
    intro id o' ho'
    rcases get?_add_cases ho' with ho' | ⟨-, rfl⟩
    · exact hm.names_nodup id o' ho'
    · rw [ho.entries_eq]
      exact List.nodup_nil
  case type_class =>
    intro id o' type ho' htype
    rcases get?_add_cases ho' with ho' | ⟨rfl, rfl⟩
    · obtain ⟨hlt, hclass, hbound, hencloses⟩ := hm.type_class id o' type ho' htype
      refine ⟨hlt, hclass.add, hbound.add, fun h => hencloses ?_⟩
      exact h.of_keeps hm (fun _ _ => get?_add_of_some) ho'
    · -- The class that is being declared, and those around it, are bound by no name.
      obtain ⟨hclass, hbound⟩ := ho.types_found type htype
      refine ⟨hclass.lt_size, hclass.add, hbound.add, fun h => ?_⟩
      rcases h.of_add hm hopen.classAt ho.parent?_eq with rfl | hencloses
      · exact hopen.not_bound hbound
      · exact hopen.outer_not_bound type hencloses hbound

/-- Binding an object to its name in the class around it keeps the invariant. -/
theorem bind (hm : m.WellFormed) (ho : m.get? scope = some o) (hclass : o.isClass = true)
    (hname : o.member? o'.name = none) (ho' : m.get? child = some o')
    (hparent : o'.parent? = some scope) : (m.bind scope o'.name child).WellFormed := by
  constructor
  case root_class =>
    obtain ⟨n, s, hroot⟩ := hm.root_class
    rw [get?_bind_of_some hroot]
    split
    · exact ⟨n, _, rfl⟩
    · exact ⟨n, s, rfl⟩
  case parent_class =>
    intro id x hx hne
    obtain ⟨y, hy, -, hsame, -⟩ := exists_get?_of_bind hx
    obtain ⟨p, hp, hlt, hpclass⟩ := hm.parent_class id y hy hne
    exact ⟨p, hsame.trans hp, hlt, hpclass.bind⟩
  case entry_found =>
    intro c x n i hx hentry
    obtain ⟨y, hy, hentry | ⟨rfl, rfl, rfl⟩⟩ := mem_entries_of_bind hx hentry
    · obtain ⟨hlt, found, hfound, hn, hp⟩ := hm.entry_found c y n i hy hentry
      obtain ⟨found', hfound', hn', hp', -⟩ := exists_bind_of_get? scope child o'.name hfound
      exact ⟨hlt, found', hfound', hn'.trans hn, hp'.trans hp⟩
    · obtain ⟨found', hfound', hn', hp', -⟩ := exists_bind_of_get? c i o'.name ho'
      exact ⟨(hm.lt_of_parent? ho' hparent).1, found', hfound', hn', hp'.trans hparent⟩
  case names_nodup =>
    intro id x hx
    obtain ⟨y, hy, rfl⟩ := get?_bind_cases hx
    have hnodup := hm.names_nodup id y hy
    split
    case isTrue hid =>
      subst hid
      obtain rfl := Option.some.inj (ho.symm.trans hy)
      rw [Object.entries_bind hclass, List.map_append]
      refine List.Nodup.append hnodup (List.nodup_singleton _) ?_
      rw [List.map_cons, List.map_nil, List.disjoint_singleton]
      exact Object.not_mem_names_of_member? hname
    case isFalse => exact hnodup
  case type_class =>
    intro id x type hx htype
    obtain ⟨y, hy, -, -, hsame, -⟩ := exists_get?_of_bind hx
    rw [hsame] at htype
    obtain ⟨hlt, htclass, hbound, hencloses⟩ := hm.type_class id y type hy htype
    exact ⟨hlt, htclass.bind, hbound.bind, fun h => hencloses h.of_bind⟩

/-- Every change keeps the invariant. -/
theorem step (hm : m.WellFormed) (h : Step m m') : m'.WellFormed := by
  cases h with
  | add hopen ho => exact hm.add hopen ho
  | bind ho hclass hname ho' hparent => exact hm.bind ho hclass hname ho' hparent

theorem steps (hm : m.WellFormed) (h : Steps m m') : m'.WellFormed := by
  induction h with
  | refl => exact hm
  | tail _ hstep ih => exact ih.step hstep

end WellFormed

/-! ## Declaring -/

/-- The body of a class that was just added may be declared. -/
theorem Open.inside (hm : m.WellFormed) (h : m.Open parent) :
    (m.add (.ofClass name (some parent) .empty)).2.Open m.size := by
  have hentries : (Object.ofClass name (some parent) .empty).entries = [] := rfl
  refine ⟨⟨.ofClass name (some parent) .empty, get?_add_size _ m, rfl⟩, ?_, ?_⟩
  · intro hbound
    exact absurd (hm.lt_size_of_bound (hbound.of_add hentries)) (Nat.lt_irrefl _)
  · intro outer hencloses hbound
    have hbefore := hbound.of_add hentries
    rcases hencloses.of_add hm h.classAt rfl with rfl | houter
    · exact h.not_bound hbefore
    · exact h.outer_not_bound outer houter hbefore

/-- A body may still be declared when something behind its class is bound. -/
theorem Open.bind (hm : m.WellFormed) (h : m.Open scope) (hlt : scope < child) :
    (m.bind scope name child).Open scope := by
  refine ⟨h.classAt.bind, fun hbound => ?_, fun outer hencloses hbound => ?_⟩
  · rcases hbound.of_bind with hbound | rfl
    · exact h.not_bound hbound
    · exact absurd hlt (Nat.lt_irrefl _)
  · have houter := hencloses.of_bind
    rcases hbound.of_bind with hbound | rfl
    · exact h.outer_not_bound outer houter hbound
    · exact absurd (Nat.lt_trans hlt (hm.lt_of_encloses houter)) (Nat.lt_irrefl _)

/-- A method or a field without fault has its object in the class that it was declared in. -/
theorem exists_get?_of_addResult {result : Except Diagnostic Object}
    (hadds : ∀ o, result = .ok o → m.Adds parent name o)
    (h : m.addResult result = (.ok child, m')) :
    ∃ o, m'.get? child = some o ∧ o.name = name ∧ o.parent? = some parent := by
  cases result with
  | ok o =>
      cases h
      have ho := hadds o rfl
      exact ⟨o, get?_add_size o m, ho.name_eq, ho.parent?_eq⟩
  | error e => cases h

/-- A complete declaration has its object in the class that it was declared in. -/
theorem exists_get?_of_declare {d : Declaration} (h : m.declare parent d = (.ok child, m')) :
    ∃ o, m'.get? child = some o ∧ o.name = d.name ∧ o.parent? = some parent := by
  cases d with
  | classDef name body span =>
      rw [declare] at h
      simp only [fst_add] at h
      have hadd : (m.add (.ofClass name (some parent) .empty)).2.get? m.size =
          some (.ofClass name (some parent) .empty) := get?_add_size _ m
      obtain ⟨added, ho, -⟩ := exists_added_declareBody m.size _ body hadd
      split at h
      · rename_i u m'' heq
        rw [heq] at ho
        cases h
        exact ⟨_, ho, rfl, rfl⟩
      · cases h
  | method method => exact exists_get?_of_addResult (fun _ => adds_of_methodObject) h
  | field field => exact exists_get?_of_addResult (fun _ => adds_of_fieldObject) h

/-- Declaring a method or a field takes one step, or none if there is a fault. -/
theorem steps_addResult {result : Except Diagnostic Object} (hopen : m.Open parent)
    (h : ∀ o, result = .ok o → m.Adds parent name o) : Steps m (m.addResult result).2 := by
  cases result with
  | ok o => exact .single (.add hopen (h o rfl))
  | error e => exact .refl

mutual

/-- A declaration changes a module step by step. -/
theorem steps_declare {m : Module} {parent : ObjectId} (hm : m.WellFormed)
    (hopen : m.Open parent) :
    (d : Declaration) → Steps m (m.declare parent d).2
  | .classDef name body _ => by
      have hadd : Step m (m.add (.ofClass name (some parent) .empty)).2 :=
        .add hopen (adds_ofClass m parent name)
      have hbody := steps_declareBody (hm.step hadd) (hopen.inside hm) body
      rw [declare]
      simp only [fst_add]
      split <;> rename_i heq <;> rw [heq] at hbody <;> exact .head hadd hbody
  | .method _ => steps_addResult hopen fun _ => adds_of_methodObject
  | .field _ => steps_addResult hopen fun _ => adds_of_fieldObject

/-- The body of a class changes a module step by step. -/
theorem steps_declareBody {m : Module} {id : ObjectId} (hm : m.WellFormed) (hopen : m.Open id) :
    (ds : List Declaration) → Steps m (m.declareBody id ds).2
  | [] => .refl
  | d :: rest => by
      have hd := steps_declare hm hopen d
      have hkeeps : ∀ i o, m.get? i = some o → (m.declare id d).2.get? i = some o :=
        fun _ _ => get?_declare id m d
      rw [declareBody]
      split
      case isTrue => exact .refl
      case isFalse hfree =>
        split
        · rename_i child m' heq
          rw [heq] at hd hkeeps
          have hm' := hm.steps hd
          obtain ⟨o', ho', hname, hparent⟩ := exists_get?_of_declare heq
          obtain ⟨o, ho, hclass⟩ := hopen.classAt
          have hbind : Step m' (m'.bind id o'.name child) :=
            .bind (hkeeps _ _ ho) hclass (hname ▸ member?_of_not_declares hfree ho) ho' hparent
          rw [hname] at hbind
          have hopen' : (m'.bind id d.name child).Open id :=
            (hopen.of_keeps hm hm' hkeeps).bind hm' (hm'.lt_of_parent? ho' hparent).1
          exact hd.trans (.head hbind (steps_declareBody (hm'.step hbind) hopen' rest))
        · rename_i e m' heq
          rw [heq] at hd
          exact hd

end

/-! ## Programs one after the other -/

/-- The module of a class is well formed while nothing is declared in it. -/
theorem wellFormed_ofClass (c : Class) : (ofClass c).WellFormed := by
  have honly : ∀ id o, (ofClass c).get? id = some o →
      id = root ∧ o = .ofClass c.name none .empty := by
    intro id o ho
    obtain rfl : id = 0 := Nat.lt_one_iff.1 (lt_size_of_get? ho)
    exact ⟨rfl, (Option.some.inj ho).symm⟩
  constructor
  case root_class => exact ⟨c.name, .empty, rfl⟩
  case parent_class => exact fun id o ho hne => absurd (honly id o ho).1 hne
  case entry_found =>
    intro scope o name id ho hentry
    obtain ⟨-, rfl⟩ := honly scope o ho
    cases hentry
  case names_nodup =>
    intro id o ho
    obtain ⟨-, rfl⟩ := honly id o ho
    exact List.nodup_nil
  case type_class =>
    intro id o type ho htype
    obtain ⟨-, rfl⟩ := honly id o ho
    cases htype

/-- The module after programs were declared in it, one after the other. What a program declares in
front of a fault stays there. -/
def initAll (cs : List Class) (m : Module) : Module := cs.foldl (fun m c => (m.init c).2) m

/-- Programs change a module step by step. -/
theorem steps_initAll (hm : m.WellFormed) (cs : List Class) : Steps m (m.initAll cs) := by
  induction cs generalizing m with
  | nil => exact .refl
  | cons c cs ih =>
      have hc : Steps m (m.init c).2 := steps_declareBody hm hm.open_root c.body
      exact hc.trans (ih (hm.steps hc))

/-- What declaring programs leaves behind is well formed. -/
theorem wellFormed_initAll (c : Class) (cs : List Class) : ((ofClass c).initAll cs).WellFormed :=
  (wellFormed_ofClass c).steps (steps_initAll (wellFormed_ofClass c) cs)

/-! ## What the invariant gives -/

/-- The search for a name from a place outward, in a bounded number of rounds. Each round reads the
object at a place, and there is no result when that place lies outside the module or when no round is
left. -/
def searchWithin (m : Module) (name : String) : Nat → Option ObjectId → Option (Option ObjectId)
  | _, none => some none
  | 0, some _ => none
  | rounds + 1, some id =>
      match m.get? id with
      | none => none
      | some o =>
          match o.member? name with
          | some found => some (some found)
          | none => m.searchWithin name rounds o.parent?

/-- A search from an object that there is ends after as many rounds as there are objects up to it. -/
theorem WellFormed.searchWithin_eq (hm : m.WellFormed) {rounds : Nat} (hid : id < rounds)
    (ho : m.get? id = some o) : m.searchWithin name rounds (some id) = some (m.lookup id name) := by
  induction rounds generalizing id o with
  | zero => exact absurd hid (Nat.not_lt_zero id)
  | succ rounds ih =>
      rw [searchWithin, lookup]
      simp only [ho]
      cases o.member? name with
      | some found => rfl
      | none =>
          cases hparent : o.parent? with
          | none => simp [searchWithin]
          | some outer =>
              obtain ⟨hlt, o', ho', -⟩ := hm.lt_of_parent? ho hparent
              simp only [if_pos hlt]
              exact ih (Nat.lt_of_lt_of_le hlt (Nat.le_of_lt_succ hid)) ho'

/-- No place that is kept in a module lies outside it. -/
theorem WellFormed.lt_size_of_mem_references (hm : m.WellFormed) (ho : m.get? id = some o)
    {i : ObjectId} (hi : i ∈ o.references) : i < m.size := by
  rw [Object.references, List.mem_append, List.mem_append, Option.mem_toList] at hi
  rcases hi with (hparent | htype) | hentry
  · exact (hm.lt_of_parent? ho hparent).2.lt_size
  · exact (hm.type_class id o i ho htype).2.1.lt_size
  · obtain ⟨⟨n, j⟩, hmem, rfl⟩ := List.mem_map.1 hentry
    exact hm.lt_size_of_bound ⟨id, o, n, ho, hmem⟩

/-- No two names lead to one object. -/
theorem WellFormed.entry_unique (hm : m.WellFormed) {c c' : ObjectId} {n n' : String}
    (ho : m.get? c = some o) (hentry : (n, id) ∈ o.entries) (ho' : m.get? c' = some o')
    (hentry' : (n', id) ∈ o'.entries) : c = c' ∧ n = n' := by
  obtain ⟨-, found, hfound, hname, hparent⟩ := hm.entry_found c o n id ho hentry
  obtain ⟨-, found', hfound', hname', hparent'⟩ := hm.entry_found c' o' n' id ho' hentry'
  obtain rfl := Option.some.inj (hfound.symm.trans hfound')
  exact ⟨Option.some.inj (hparent.symm.trans hparent'), hname.symm.trans hname'⟩

/-- Whether declaring a body in a class of a module binds, in the module that there is by then, a name
in a class to an object. -/
inductive Binds :
    Module → ObjectId → List Declaration → Module → ObjectId → String → ObjectId → Prop where
  /-- The name of a declaration is bound when the declaration is complete. -/
  | here {m m' : Module} {id child : ObjectId} {d : Declaration} {rest : List Declaration} :
      ¬ m.declares id d.name → m.declare id d = (.ok child, m') →
      Binds m id (d :: rest) m' id d.name child
  /-- Then the rest of the body is declared. -/
  | behind {m m' target : Module} {id child scope found : ObjectId} {name : String}
      {d : Declaration} {rest : List Declaration} :
      ¬ m.declares id d.name → m.declare id d = (.ok child, m') →
      Binds (m'.bind id d.name child) id rest target scope name found →
      Binds m id (d :: rest) target scope name found
  /-- The body of a class is declared first. -/
  | inside {m target : Module} {id scope found : ObjectId} {name inner : String}
      {body rest : List Declaration} {span : Span} :
      ¬ m.declares id inner →
      Binds (m.add (.ofClass inner (some id) .empty)).2 m.size body target scope name found →
      Binds m id (.classDef inner body span :: rest) target scope name found

/-- A name is only ever bound in a class, and where it is free. -/
theorem Binds.free {ds : List Declaration} {target : Module} {found : ObjectId}
    (h : Binds m id ds target scope name found) (hid : m.ClassAt id) :
    ∃ o, target.get? scope = some o ∧ o.isClass = true ∧ o.member? name = none := by
  induction h with
  | @here m m' id child d rest hfree hd =>
      obtain ⟨o, ho, hclass⟩ := hid
      have hkept := get?_declare id m d ho
      rw [hd] at hkept
      exact ⟨o, hkept, hclass, member?_of_not_declares hfree ho⟩
  | @behind m m' target id child scope found name d rest hfree hd _ ih =>
      obtain ⟨o, ho, hclass⟩ := hid
      have hkept := get?_declare id m d ho
      rw [hd] at hkept
      exact ih (ClassAt.bind ⟨o, hkept, hclass⟩)
  | inside _ _ ih => exact ih ⟨_, get?_add_size _ _, rfl⟩

/-- Whatever programs were declared, and however that ended, the module is well formed. So no two
names lead to one object, all places in the module exist, the search for a name outward from an object
is over after as many rounds as there are objects up to that one, and what it finds exists. A type
stands for a class. Declaring one program more binds names in classes only, and free ones. -/
theorem initAll_invariant (c : Class) (cs : List Class) :
    let m := (ofClass c).initAll cs
    m.WellFormed ∧
    (∀ scope scope' o o' name name' id, m.get? scope = some o → (name, id) ∈ o.entries →
      m.get? scope' = some o' → (name', id) ∈ o'.entries → scope = scope' ∧ name = name') ∧
    (∀ id o, m.get? id = some o → ∀ i ∈ o.references, i < m.size) ∧
    (∀ id < m.size, ∀ name,
      m.searchWithin name (id + 1) (some id) = some (m.lookup id name)) ∧
    (∀ scope name id, m.lookup scope name = some id → id < m.size) ∧
    (∀ scope type id, m.lookupClass scope type = .ok id → m.ClassAt id) ∧
    (∀ next target scope name id, Binds m root (Class.body next) target scope name id →
      ∃ o, target.get? scope = some o ∧ o.isClass = true ∧ o.member? name = none) := by
  intro m
  have hm : m.WellFormed := wellFormed_initAll c cs
  refine ⟨hm, ?_, ?_, ?_, ?_, ?_, ?_⟩
  · exact fun _ _ _ _ _ _ _ ho hentry ho' hentry' => hm.entry_unique ho hentry ho' hentry'
  · exact fun _ _ ho _ hi => hm.lt_size_of_mem_references ho hi
  · intro id hid name
    obtain ⟨o, ho⟩ := exists_get? hid
    exact hm.searchWithin_eq (Nat.lt_succ_self id) ho
  · exact fun _ _ _ h => hm.lt_size_of_bound (bound_of_lookup h)
  · exact fun _ _ _ h => (classAt_of_lookupClass h).1
  · exact fun _ _ _ _ _ h => h.free hm.open_root.classAt

end

end Bucket.Module
