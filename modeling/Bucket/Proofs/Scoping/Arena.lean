/-
# The objects while a tree is declared

Declarations are taken in the order of the text, so a place in a tree is also a moment of the pass
over it: the one just before the declaration there is taken. Here is said, of the tree alone, which
objects there are at such a moment (`Arena`). The main facts are that a name is looked up as the rule
for names says (`Arena.lookup`), that types are looked up so too (`Arena.lookupClass`), and that a
class knows the names in front of the moment (`Arena.declares`).
-/
import Bucket.Module.Declaring
import Bucket.Proofs.Scoping.Rule

namespace Bucket

namespace Class

/-! ## What is recorded of a declaration -/

/-- The number of the class around a place. -/
def enclosing? (c : Class) : Place → Option ObjectId
  | [] => none
  | _ :: outer => some (c.number outer)

/-- The names of the first `n` declarations in the class at a place, each with its number. -/
def entries (c : Class) (place : Place) (n : Nat) : List (String × ObjectId) :=
  ((c.bodyAt place).take n).mapIdx fun i d => (d.name, c.number (i :: place))

/-- Whether a type, where the declaration at a place names it, stands for the class with a number. -/
def Denotes (c : Class) (place : Place) (type : Expression) (id : ObjectId) : Prop :=
  ∃ target, c.Means place type target ∧ c.number target = id

/-- Whether an object is that of the declaration at a place. A class shows its first `n` names. -/
def Records (c : Class) (place : Place) (n : Nat) : Declaration → Object → Prop
  | .classDef name _ _, o => o = .ofClass name (c.enclosing? place) ⟨c.entries place n⟩
  | .method m, o =>
      ∃ parent arguments returns, c.enclosing? place = some parent ∧
        o = .ofMethod m.name parent arguments returns ∧
        List.Forall₂ (fun a (p : String × ObjectId) => p.1 = a.name ∧ c.Denotes place a.type p.2)
          m.arguments arguments ∧
        Option.Rel (c.Denotes place) m.returns returns
  | .field f, o =>
      ∃ parent type, c.enclosing? place = some parent ∧ o = .ofField f.name parent type ∧
        c.Denotes place f.type type

/-- A type stands for one class only. -/
theorem Denotes.unique {c : Class} {place : Place} {type : Expression} {i j : ObjectId}
    (hi : c.Denotes place type i) (hj : c.Denotes place type j) : i = j := by
  obtain ⟨target, ⟨name, hname, hresolve, -⟩, rfl⟩ := hi
  obtain ⟨target', ⟨name', hname', hresolve', -⟩, rfl⟩ := hj
  obtain rfl : name = name' := Option.some.inj (hname.symm.trans hname')
  rw [Option.some.inj (hresolve.symm.trans hresolve')]

/-- The names of a complete class are those in its body. -/
theorem map_fst_entries (c : Class) (place : Place) :
    (c.entries place (c.bodyAt place).length).map Prod.fst =
      (c.bodyAt place).map Declaration.name := by
  refine List.ext_getElem? fun j => ?_
  simp [entries, Function.comp_def]

/-- A complete class has an entry for each declaration in its body. -/
theorem mem_entries_length {c : Class} {place : Place} {name : String} {id : ObjectId} :
    (name, id) ∈ c.entries place (c.bodyAt place).length ↔
      ∃ j d, c.declaration? (j :: place) = some d ∧ d.name = name ∧ c.number (j :: place) = id := by
  simp only [entries, List.take_length, List.mem_mapIdx, declaration?_cons, Prod.mk.injEq]
  constructor
  · rintro ⟨j, hj, hname, hid⟩
    exact ⟨j, _, List.getElem?_eq_getElem hj, hname, hid⟩
  · rintro ⟨j, d, hd, hname, hid⟩
    obtain ⟨hj, rfl⟩ := List.getElem?_eq_some_iff.1 hd
    exact ⟨j, hj, hname, hid⟩

/-! ## Moments -/

/-- How many declarations in the class at a place are complete at a moment. Of the classes around the
moment it is the index there, and every other class is either complete or not yet begun. -/
def progress (c : Class) : Place → Place → Nat
  | [], place => (c.bodyAt place).length
  | i :: outer, place => if outer = place then i else c.progress outer place

/-- Whether a module holds the objects that there are at a moment. -/
structure Arena (c : Class) (moment : Place) (m : Module) : Prop where
  /-- There is an object for the whole class and for each declaration that has begun. -/
  size_eq : m.size = c.number moment
  /-- The object of every declaration that has begun is found under its number. -/
  records : ∀ place d, c.declaration? place = some d → c.number place < c.number moment →
    ∃ o, m.get? (c.number place) = some o ∧ c.Records place (c.progress moment place) d o

/-! ## Classes around a moment -/

/-- In a class around a moment the index there tells how much of it is complete. -/
theorem progress_of_suffix (c : Class) {moment outer : Place} {i : Nat}
    (h : (i :: outer) <:+ moment) : c.progress moment outer = i := by
  induction moment with
  | nil => simp at h
  | cons j moment ih =>
      rcases List.suffix_cons_iff.1 h with heq | hsuf
      · obtain ⟨rfl, rfl⟩ := List.cons.inj heq
        simp [progress]
      · -- A place is shorter than those inside it.
        have hne : moment ≠ outer := by
          rintro rfl
          have := hsuf.length_le
          rw [List.length_cons] at this
          omega
        rw [progress, if_neg hne, ih hsuf]

/-- The places around a moment come before it. -/
theorem number_le_of_suffix (c : Class) {moment place : Place} (h : place <:+ moment) :
    c.number place ≤ c.number moment := by
  induction moment with
  | nil =>
      obtain rfl := List.suffix_nil.1 h
      exact Nat.le_refl _
  | cons j moment ih =>
      rcases List.suffix_cons_iff.1 h with rfl | hsuf
      · exact Nat.le_refl _
      · exact Nat.le_trans (ih hsuf) (Nat.le_of_lt (c.number_lt_cons j moment))

/-- A class that is not around a moment is complete, if it has begun at all. -/
theorem progress_eq_length (c : Class) {moment place : Place} (h : place.length ≥ moment.length) :
    c.progress moment place = (c.bodyAt place).length := by
  induction moment with
  | nil => rfl
  | cons i moment ih =>
      have hne : moment ≠ place := by
        rintro rfl
        rw [List.length_cons] at h
        omega
      rw [List.length_cons] at h
      rw [progress, if_neg hne, ih (by omega)]

/-! ## Looking up -/

/-- Looking a name up among numbered entries finds the first declaration with that name. -/
theorem lookup_mapIdx {ds : List Declaration} (f : Nat → ObjectId) (name : String) :
    (ds.mapIdx fun i d => (d.name, f i)).lookup name =
      (ds.findIdx? (·.name == name)).map f := by
  induction ds generalizing f with
  | nil => rfl
  | cons d rest ih =>
      rw [List.mapIdx_cons, List.lookup_cons, List.findIdx?_cons]
      by_cases h : name = d.name
      · simp [h]
      · have h' : ¬ d.name = name := fun e => h e.symm
        rw [beq_eq_false_iff_ne.2 h, beq_eq_false_iff_ne.2 h', ih]
        simp [Option.map_map, Function.comp_def]

/-- A class shows the first of its complete declarations with a name. -/
theorem member?_of_records {c : Class} {place : Place} {i : Nat} {d : Declaration} {o : Object}
    (hd : d.isClass) (h : c.Records place i d o) (name : String) :
    o.member? name =
      (((c.bodyAt place).take i).findIdx? (·.name == name)).map fun j => c.number (j :: place) := by
  cases d with
  | classDef n body span =>
      obtain rfl : o = _ := h
      exact lookup_mapIdx (fun j => c.number (j :: place)) name
  | method m => simp [Declaration.isClass, Declaration.class?] at hd
  | field f => simp [Declaration.isClass, Declaration.class?] at hd

/-- An object lies in the class around its declaration. -/
theorem parent?_of_records {c : Class} {place : Place} {n : Nat} {d : Declaration} {o : Object}
    (h : c.Records place n d o) : o.parent? = c.enclosing? place := by
  cases d with
  | classDef name body span =>
      obtain rfl : o = _ := h
      rfl
  | method m =>
      obtain ⟨parent, arguments, returns, hp, rfl, -⟩ := h
      exact hp.symm
  | field f =>
      obtain ⟨parent, type, hp, rfl, -⟩ := h
      exact hp.symm

/-- An object is a class exactly when its declaration is. -/
theorem isClass_of_records {c : Class} {place : Place} {n : Nat} {d : Declaration} {o : Object}
    (h : c.Records place n d o) : o.isClass = d.isClass := by
  cases d with
  | classDef name body span =>
      obtain rfl : o = _ := h
      rfl
  | method m =>
      obtain ⟨parent, arguments, returns, -, rfl, -⟩ := h
      rfl
  | field f =>
      obtain ⟨parent, type, -, rfl, -⟩ := h
      rfl

/-- Inside a class around a moment, names lead where the rule for names says. -/
theorem Arena.lookup {c : Class} {moment : Place} {m : Module} (ha : c.Arena moment m)
    (name : String) {i : Nat} {outer : Place} {d : Declaration}
    (hsuf : (i :: outer) <:+ moment) (hd : c.declaration? outer = some d) (hclass : d.isClass) :
    m.lookup (c.number outer) name = (c.resolve name (i :: outer)).map c.number := by
  -- From the inside outward, as the search goes. The class inside which the moment is shows the
  -- names in front of the moment, and an outer class those in front of the inner one.
  induction outer generalizing i d with
  | nil =>
      have hlt := Nat.lt_of_lt_of_le (c.number_lt_cons i []) (c.number_le_of_suffix hsuf)
      obtain ⟨o, ho, hrec⟩ := ha.records [] d hd hlt
      rw [c.progress_of_suffix hsuf] at hrec
      rw [Module.lookup, ho]
      simp only [member?_of_records hclass hrec, parent?_of_records hrec, resolve, before,
        enclosing?]
      cases ((c.bodyAt []).take i).findIdx? (·.name == name) <;> rfl
  | cons k outer ih =>
      have hlt := Nat.lt_of_lt_of_le (c.number_lt_cons i (k :: outer)) (c.number_le_of_suffix hsuf)
      obtain ⟨o, ho, hrec⟩ := ha.records (k :: outer) d hd hlt
      obtain ⟨e, he, heclass, -⟩ := isClass_of_declaration?_cons hd
      have houter := ih ((List.suffix_cons i _).trans hsuf) he heclass
      rw [c.progress_of_suffix hsuf] at hrec
      rw [Module.lookup, ho]
      simp only [member?_of_records hclass hrec, parent?_of_records hrec, enclosing?]
      rw [resolve, before]
      cases ((c.bodyAt (k :: outer)).take i).findIdx? (·.name == name) with
      | some j => rfl
      | none => simp only [Option.map_none, if_pos (c.number_lt_cons k outer), houter]

/-- What a name leads to is complete. -/
theorem number_resolve_lt {c : Class} {name : String} {place target : Place}
    (h : c.resolve name place = some target) :
    (∃ d, c.declaration? target = some d) ∧ c.number target < c.number place := by
  induction place with
  | nil => simp [resolve] at h
  | cons i outer ih =>
      rw [resolve] at h
      split at h
      · rename_i j hj
        simp only [Option.some.injEq] at h
        subst h
        obtain ⟨hlen, -⟩ := List.findIdx?_eq_some_iff_findIdx_eq.1 hj
        simp only [before, List.length_take] at hlen
        have hd : c.declaration? (j :: outer) = some ((c.bodyAt outer)[j]) := by
          rw [declaration?_cons]
          exact List.getElem?_eq_getElem (by omega)
        exact ⟨⟨_, hd⟩, number_lt_of_lt hd (by omega)⟩
      · obtain ⟨hd, hlt⟩ := ih h
        exact ⟨hd, Nat.lt_trans hlt (c.number_lt_cons i outer)⟩

/-- A type is looked up as the rule for names says: it has a fault, or the class that it stands for
is found. -/
theorem Arena.lookupClass {c : Class} {i : Nat} {outer : Place} {m : Module}
    (ha : c.Arena (i :: outer) m) {d : Declaration} (hd : c.declaration? outer = some d)
    (hclass : d.isClass) (type : Expression) :
    match c.typeFault? (i :: outer) type with
    | some e => m.lookupClass (c.number outer) type = .error e
    | none => ∃ id, m.lookupClass (c.number outer) type = .ok id ∧
        c.Denotes (i :: outer) type id := by
  unfold typeFault? Module.lookupClass
  cases hn : type.name? with
  | none => rfl
  | some name =>
      simp only [ha.lookup name (List.suffix_refl _) hd hclass]
      cases hr : c.resolve name (i :: outer) with
      | none => rfl
      | some target =>
          -- What was found is complete, so its object is there already.
          obtain ⟨⟨e, he⟩, hlt⟩ := number_resolve_lt hr
          obtain ⟨o, ho, hrec⟩ := ha.records target e he hlt
          simp only [Option.map_some, ho, he, Option.any_some, isClass_of_records hrec]
          by_cases hc : e.isClass
          · simp only [hc, if_true]
            exact ⟨_, rfl, target, ⟨name, hn, hr, by simp [he, hc]⟩, rfl⟩
          · simp [hc]

/-- A class knows a name when one of its complete declarations has it. -/
theorem Arena.declares {c : Class} {i : Nat} {outer : Place} {m : Module}
    (ha : c.Arena (i :: outer) m) {d : Declaration} (hd : c.declaration? outer = some d)
    (hclass : d.isClass) (name : String) :
    m.declares (c.number outer) name ↔ name ∈ (c.before (i :: outer)).map Declaration.name := by
  obtain ⟨o, ho, hrec⟩ := ha.records outer d hd (c.number_lt_cons i outer)
  rw [c.progress_of_suffix (List.suffix_refl _)] at hrec
  simp only [Module.declares, ho, Option.bind_some, member?_of_records hclass hrec,
    Option.isSome_map, List.findIdx?_isSome, List.any_eq_true, beq_iff_eq, before, List.mem_map]

end Class

end Bucket
