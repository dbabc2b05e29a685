/-
# What a fault leaves behind

A place in a tree is also a moment while the tree is declared: the one just before the declaration there
is taken. Here is said what there is at such a moment when a tree is declared in a module that holds
other objects already (`Module.Begun`): an object for each declaration that has begun, and an entry for
each one that is complete. Declaring stops at the declaration with a fault, so this tells what is left
behind (`Module.remains_of_fault`).
-/
import Bucket.Proofs.Scoping.Place
import Bucket.Proofs.Scoping.Renumbering
import Bucket.Proofs.Scoping.Stability
import Bucket.Proofs.Scoping.Stopping

namespace Bucket

/-! ## The object of a declaration -/

namespace Declaration

/-- Whether an object is that of a declaration in a class. The names that a class knows are left open,
and so are the types of a method or a field. -/
def HasObject (parent : ObjectId) : Declaration → Object → Prop
  | .classDef name _ _, o => ∃ scope, o = .ofClass name (some parent) scope
  | .method m, o =>
      ∃ arguments returns, o = .ofMethod m.name parent arguments returns ∧
        arguments.map Prod.fst = m.arguments.map (·.name) ∧ returns.isSome = m.returns.isSome
  | .field f, o => ∃ type, o = .ofField f.name parent type

variable {d : Declaration} {parent : ObjectId} {o : Object}

theorem HasObject.bind (h : d.HasObject parent o) (name : String) (id : ObjectId) :
    d.HasObject parent (o.bind name id) := by
  cases d with
  | classDef n body span =>
      obtain ⟨scope, rfl⟩ := h
      exact ⟨_, rfl⟩
  | method m =>
      obtain ⟨arguments, returns, rfl, h⟩ := h
      exact ⟨arguments, returns, rfl, h⟩
  | field f =>
      obtain ⟨type, rfl⟩ := h
      exact ⟨type, rfl⟩

theorem HasObject.isClass_eq (h : d.HasObject parent o) : o.isClass = d.isClass := by
  cases d with
  | classDef n body span =>
      obtain ⟨scope, rfl⟩ := h
      rfl
  | method m =>
      obtain ⟨arguments, returns, rfl, -⟩ := h
      rfl
  | field f =>
      obtain ⟨type, rfl⟩ := h
      rfl

end Declaration

namespace Class

/-- A class with no more than what stands in front of the declaration at a place. The classes around
that declaration are there, too. -/
def inFront (place : Place) (c : Class) : Class :=
  match place.reverse with
  | [] => { c with body := [] }
  | i :: path => { c with body := declarationsInFront c.body i path }

variable {p : Class} {m : Module} {i : Nat} {outer place moment : Place} {d e : Declaration}

/-! ## Places of objects -/

/-- The place of the object for the declaration at a place of a tree, when the tree is declared in a
module: behind the objects that are there already. The tree itself is the module. -/
def idIn (p : Class) (m : Module) (place : Place) : ObjectId :=
  Module.past 1 (m.size - 1) (p.number place)

@[simp] theorem idIn_nil (p : Class) (m : Module) : p.idIn m [] = Module.root :=
  Module.past_root Nat.one_pos

theorem idIn_cons (p : Class) (m : Module) (i : Nat) (outer : Place) :
    p.idIn m (i :: outer) = p.number (i :: outer) + (m.size - 1) :=
  Module.past_of_le (Nat.succ_le_of_lt (Nat.zero_lt_of_lt (p.number_lt_cons i outer)))

/-- New objects lie behind the old ones. -/
theorem size_le_idIn_cons (p : Class) (m : Module) (i : Nat) (outer : Place) :
    m.size ≤ p.idIn m (i :: outer) := by
  have hpos := Nat.zero_lt_of_lt (p.number_lt_cons i outer)
  rw [idIn_cons]
  unfold ObjectId
  omega

theorem idIn_first (p : Class) (m : Module) (i : Nat) (outer : Place) :
    p.idIn m (0 :: i :: outer) = p.idIn m (i :: outer) + 1 := by
  rw [idIn_cons, idIn_cons, number_first]
  exact Nat.add_right_comm _ _ _

theorem idIn_lt_idIn_iff {q : Place} : p.idIn m place < p.idIn m q ↔ p.number place < p.number q :=
  Module.past_lt_past_iff

theorem idIn_inj {q : Place} (hd : p.declaration? place = some d) (he : p.declaration? q = some e)
    (h : p.idIn m place = p.idIn m q) : place = q :=
  number_inj hd he (Module.past_injective _ _ h)

/-! ## Complete declarations -/

/-- Whether the declaration at a place is complete at a moment: it begins in front of the moment, and is
no class around it. -/
def Complete (p : Class) (moment place : Place) : Prop :=
  p.number place < p.number moment ∧ ¬ place <:+ moment

/-- No declaration becomes complete when another one begins. -/
theorem complete_first (hd : p.declaration? (i :: outer) = some d)
    (he : p.declaration? place = some e) :
    p.Complete (0 :: i :: outer) place ↔ p.Complete (i :: outer) place := by
  rw [Complete, Complete, number_first, List.suffix_cons_iff, not_or]
  constructor
  · rintro ⟨hlt, -, hnot⟩
    have hne : p.number place ≠ p.number (i :: outer) := by
      intro heq
      obtain rfl := number_inj he hd heq
      exact hnot List.suffix_rfl
    exact ⟨by omega, hnot⟩
  · rintro ⟨hlt, hnot⟩
    refine ⟨by omega, ?_, hnot⟩
    rintro rfl
    rw [number_first] at hlt
    omega

/-- Behind its body a declaration is complete, and so are those that were before. -/
theorem complete_next (hd : p.declaration? (i :: outer) = some d) :
    p.Complete ((i + 1) :: outer) place ↔
      p.Complete (d.body.length :: i :: outer) place ∨ place = i :: outer := by
  have hlast := number_last hd
  rw [Complete, Complete, hlast, List.suffix_cons_iff, List.suffix_cons_iff, List.suffix_cons_iff]
  constructor
  · rintro ⟨hlt, hnot⟩
    by_cases heq : place = i :: outer
    · exact .inr heq
    · refine .inl ⟨hlt, ?_⟩
      rintro (rfl | hin | hin)
      · omega
      · exact heq hin
      · exact hnot (.inr hin)
  · rintro (⟨hlt, hnot⟩ | rfl)
    · refine ⟨hlt, ?_⟩
      rintro (rfl | hin)
      · exact Nat.lt_irrefl _ hlt
      · exact hnot (.inr (.inr hin))
    · refine ⟨number_lt_of_lt hd (Nat.lt_succ_self i), ?_⟩
      rintro (heq | hin)
      · have := (List.cons.inj heq).1
        omega
      · have := hin.length_le
        rw [List.length_cons] at this
        omega

/-- Whether declaring a tree in a module gives an object an entry up to a moment: the name of a complete
declaration leads to its object in the class around it. -/
def EntryAt (p : Class) (m : Module) (moment : Place) (id : ObjectId)
    (entry : String × ObjectId) : Prop :=
  ∃ i outer d, p.declaration? (i :: outer) = some d ∧ p.Complete moment (i :: outer) ∧
    id = p.idIn m outer ∧ entry = (d.name, p.idIn m (i :: outer))

variable {id : ObjectId} {entry : String × ObjectId}

theorem entryAt_first (hd : p.declaration? (i :: outer) = some d) :
    p.EntryAt m (0 :: i :: outer) id entry ↔ p.EntryAt m (i :: outer) id entry := by
  constructor
  · rintro ⟨j, around, e, he, hcomplete, h⟩
    exact ⟨j, around, e, he, (complete_first hd he).1 hcomplete, h⟩
  · rintro ⟨j, around, e, he, hcomplete, h⟩
    exact ⟨j, around, e, he, (complete_first hd he).2 hcomplete, h⟩

theorem entryAt_next (hd : p.declaration? (i :: outer) = some d) :
    p.EntryAt m ((i + 1) :: outer) id entry ↔
      p.EntryAt m (d.body.length :: i :: outer) id entry ∨
        id = p.idIn m outer ∧ entry = (d.name, p.idIn m (i :: outer)) := by
  constructor
  · rintro ⟨j, around, e, he, hcomplete, h⟩
    rcases (complete_next hd).1 hcomplete with hcomplete | heq
    · exact .inl ⟨j, around, e, he, hcomplete, h⟩
    · obtain ⟨rfl, rfl⟩ := List.cons.inj heq
      obtain rfl := Option.some.inj (he.symm.trans hd)
      exact .inr h
  · rintro (⟨j, around, e, he, hcomplete, h⟩ | h)
    · exact ⟨j, around, e, he, (complete_next hd).2 (.inl hcomplete), h⟩
    · exact ⟨i, outer, d, hd, (complete_next hd).2 (.inr rfl), h⟩

/-- Only objects in front of a moment have entries. -/
theorem EntryAt.lt (h : p.EntryAt m moment id entry) : id < p.idIn m moment := by
  obtain ⟨i, outer, d, -, ⟨hlt, -⟩, rfl, -⟩ := h
  exact idIn_lt_idIn_iff.2 (Nat.lt_trans (p.number_lt_cons i outer) hlt)

end Class

namespace Module

/-! ## Moments -/

/-- Whether a module holds what there is at a moment while a tree is declared in another one. -/
structure Begun (base : Module) (p : Class) (moment : Place) (m : Module) : Prop where
  /-- Behind the old objects there is one for each declaration that has begun. -/
  size_eq : m.size = p.idIn base moment
  root_class : m.ClassAt root
  /-- The object of every declaration that has begun is found in its place. -/
  objects : ∀ i outer d, p.declaration? (i :: outer) = some d →
    p.number (i :: outer) < p.number moment →
    ∃ o, m.get? (p.idIn base (i :: outer)) = some o ∧ d.HasObject (p.idIn base outer) o
  /-- Entries are the old ones and those of the declarations that are complete. -/
  entries : ∀ id o entry, m.get? id = some o →
    (entry ∈ o.entries ↔ (∃ o₀, base.get? id = some o₀ ∧ entry ∈ o₀.entries) ∨
      p.EntryAt base moment id entry)

variable {base m m' : Module} {p : Class} {i : Nat} {outer : Place} {d e : Declaration} {o : Object}

/-- Before anything is declared there is what there was. -/
theorem begun_self (hroot : base.ClassAt root) (p : Class) : Begun base p [0] base := by
  have hnumber : p.number [0] = 1 := p.number_first []
  have hpos : 0 < base.size := by
    obtain ⟨o, ho, -⟩ := hroot
    exact Nat.zero_lt_of_lt (lt_size_of_get? ho)
  constructor
  case size_eq =>
    rw [Class.idIn_cons, hnumber]
    omega
  case root_class => exact hroot
  case objects =>
    intro i outer d _ hlt
    have := p.number_lt_cons i outer
    omega
  case entries =>
    intro id o entry ho
    constructor
    · exact fun h => .inl ⟨o, ho, h⟩
    · rintro (⟨o₀, ho₀, h⟩ | ⟨i, outer, d, -, ⟨hlt, -⟩, -⟩)
      · obtain rfl := Option.some.inj (ho.symm.trans ho₀)
        exact h
      · have := p.number_lt_cons i outer
        omega

/-- A class that has begun is found in its place. -/
theorem Begun.classAt {moment : Place} (hb : Begun base p moment m) (he : p.declaration? outer = some e)
    (hclass : e.isClass) (hlt : p.number outer < p.number moment) :
    m.ClassAt (p.idIn base outer) := by
  cases outer with
  | nil =>
      rw [Class.idIn_nil]
      exact hb.root_class
  | cons j around =>
      obtain ⟨o, ho, hobject⟩ := hb.objects j around e he hlt
      exact ⟨o, ho, hobject.isClass_eq.trans hclass⟩

/-- Adding the object of a declaration leads to the moment inside that declaration. -/
theorem Begun.open (hb : Begun base p (i :: outer) m) (hd : p.declaration? (i :: outer) = some d)
    (ho : d.HasObject (p.idIn base outer) o) (hentries : o.entries = []) :
    Begun base p (0 :: i :: outer) (m.add o).2 := by
  constructor
  case size_eq => rw [size_add, hb.size_eq, Class.idIn_first]
  case root_class => exact hb.root_class.add
  case objects =>
    intro j around e he hlt
    rw [Class.number_first] at hlt
    -- A number belongs to one declaration only, so no older object is touched.
    by_cases hnumber : p.number (j :: around) = p.number (i :: outer)
    · obtain ⟨rfl, rfl⟩ := List.cons.inj (Class.number_inj he hd hnumber)
      obtain rfl := Option.some.inj (he.symm.trans hd)
      refine ⟨o, ?_, ho⟩
      rw [← hb.size_eq]
      exact get?_add_size o m
    · obtain ⟨o', ho', hobject⟩ := hb.objects j around e he (by omega)
      exact ⟨o', get?_add_of_some ho', hobject⟩
  case entries =>
    intro id o' entry ho'
    rw [Class.entryAt_first hd]
    rcases get?_add_cases ho' with ho' | ⟨rfl, rfl⟩
    · exact hb.entries id o' entry ho'
    · -- The new object lies behind all that have entries.
      rw [hentries, hb.size_eq]
      refine ⟨fun h => (List.not_mem_nil h).elim, ?_⟩
      rintro (⟨o₀, ho₀, -⟩ | h)
      · exact absurd (lt_size_of_get? ho₀) (Nat.not_lt.2 (p.size_le_idIn_cons base i outer))
      · exact absurd h.lt (Nat.lt_irrefl _)

/-- Binding the name of a complete declaration leads to the moment behind it. -/
theorem Begun.close (hb : Begun base p (d.body.length :: i :: outer) m)
    (hd : p.declaration? (i :: outer) = some d) :
    Begun base p ((i + 1) :: outer)
      (m.bind (p.idIn base outer) d.name (p.idIn base (i :: outer))) := by
  have hlast := Class.number_last hd
  constructor
  case size_eq => rw [size_bind, hb.size_eq, Class.idIn, Class.idIn, hlast]
  case root_class => exact hb.root_class.bind
  case objects =>
    intro j around e he hlt
    rw [← hlast] at hlt
    obtain ⟨o, ho, hobject⟩ := hb.objects j around e he hlt
    refine ⟨_, get?_bind_of_some ho, ?_⟩
    split
    · exact hobject.bind _ _
    · exact hobject
  case entries =>
    intro id o' entry ho'
    obtain ⟨o, ho, rfl⟩ := get?_bind_cases ho'
    rw [Class.entryAt_next hd, ← or_assoc, ← hb.entries id o entry ho]
    split
    case isTrue hid =>
      -- The object around is a class, so it gets the entry.
      obtain ⟨e, he, hclass, -⟩ := Class.isClass_of_declaration?_cons hd
      obtain ⟨o₁, ho₁, hclass₁⟩ := hb.classAt he hclass
        (Nat.lt_trans (p.number_lt_cons i outer) (p.number_lt_cons _ _))
      subst hid
      obtain rfl := Option.some.inj (ho.symm.trans ho₁)
      rw [Object.entries_bind hclass₁, List.mem_append, List.mem_singleton]
      simp
    case isFalse hid =>
      have hne : id ≠ p.idIn base outer := Ne.symm hid
      simp [hne]

/-! ## Complete declarations -/

/-- A method or a field without a fault has its object. -/
theorem Begun.addResult {result : Except Diagnostic Object} {id : ObjectId}
    (hb : Begun base p (i :: outer) m) (hd : p.declaration? (i :: outer) = some d)
    (hbody : d.body = [])
    (hresult : ∀ o, result = .ok o → d.HasObject (p.idIn base outer) o ∧ o.entries = [])
    (h : m.addResult result = (.ok id, m')) :
    id = p.idIn base (i :: outer) ∧ Begun base p (d.body.length :: i :: outer) m' := by
  cases result with
  | error e => cases h
  | ok o =>
      obtain ⟨hobject, hentries⟩ := hresult o rfl
      cases h
      rw [hbody]
      exact ⟨hb.size_eq, hb.open hd hobject hentries⟩

theorem names_of_lookupArguments {scope : ObjectId} {as : List Argument}
    {found : List (String × ObjectId)} (h : m.lookupArguments scope as = .ok found) :
    found.map Prod.fst = as.map (·.name) := by
  induction as generalizing found with
  | nil =>
      obtain rfl := Except.ok.inj h
      rfl
  | cons a rest ih =>
      obtain ⟨type, -, h⟩ := exists_of_bind_ok h
      obtain ⟨others, hothers, h⟩ := exists_of_bind_ok h
      obtain rfl := Except.ok.inj h
      exact congrArg (a.name :: ·) (ih hothers)

theorem isSome_of_lookupReturns {scope : ObjectId} {returns : Option Expression}
    {found : Option ObjectId} (h : m.lookupReturns scope returns = .ok found) :
    found.isSome = returns.isSome := by
  cases returns with
  | none =>
      obtain rfl := Except.ok.inj h
      rfl
  | some type =>
      obtain ⟨id, -, rfl⟩ := exists_of_lookupReturns h
      rfl

theorem hasObject_of_methodObject {parent : ObjectId} {method : Method}
    (h : m.methodObject parent method = .ok o) :
    (Declaration.method method).HasObject parent o ∧ o.entries = [] := by
  obtain ⟨arguments, harguments, h⟩ := exists_of_bind_ok h
  obtain ⟨returns, hreturns, h⟩ := exists_of_bind_ok h
  obtain rfl := Except.ok.inj h
  exact ⟨⟨arguments, returns, rfl, names_of_lookupArguments harguments,
    isSome_of_lookupReturns hreturns⟩, rfl⟩

theorem hasObject_of_fieldObject {parent : ObjectId} {field : Field}
    (h : m.fieldObject parent field = .ok o) :
    (Declaration.field field).HasObject parent o ∧ o.entries = [] := by
  obtain ⟨type, -, h⟩ := exists_of_bind_ok h
  obtain rfl := Except.ok.inj h
  exact ⟨⟨type, rfl⟩, rfl⟩

mutual

/-- Declaring one declaration without a fault leads to the moment at its end. -/
theorem Begun.declare {base m m' : Module} {p : Class} {i : Nat} {outer : Place} {id : ObjectId}
    (hb : Begun base p (i :: outer) m) :
    (d : Declaration) → p.declaration? (i :: outer) = some d →
      m.declare (p.idIn base outer) d = (.ok id, m') →
      id = p.idIn base (i :: outer) ∧ Begun base p (d.body.length :: i :: outer) m'
  | .classDef name body span, hd, h => by
      -- The object of the class is added first, and then its body is declared into it.
      have hopen := hb.open hd (o := .ofClass name (some (p.idIn base outer)) .empty) ⟨_, rfl⟩ rfl
      simp only [Module.declare, fst_add, hb.size_eq] at h
      split at h
      · rename_i m'' heq
        cases h
        have hdrop : (p.bodyAt (i :: outer)).drop 0 = body := by
          rw [Class.bodyAt_of_declaration? hd, List.drop_zero]
          rfl
        have hbody := hopen.declareBody body hdrop heq
        rw [Nat.zero_add] at hbody
        exact ⟨rfl, hbody⟩
      · cases h
  | .method method, hd, h =>
      hb.addResult hd rfl (fun _ => hasObject_of_methodObject) h
  | .field field, hd, h =>
      hb.addResult hd rfl (fun _ => hasObject_of_fieldObject) h

/-- Declaring the rest of a body without a fault leads to the moment at the end of the body. -/
theorem Begun.declareBody {base m m' : Module} {p : Class} {i : Nat} {outer : Place}
    (hb : Begun base p (i :: outer) m) :
    (ds : List Declaration) → (p.bodyAt outer).drop i = ds →
      m.declareBody (p.idIn base outer) ds = (.ok (), m') →
      Begun base p ((i + ds.length) :: outer) m'
  | [], _, h => by
      cases h
      exact hb
  | d :: rest, hdrop, h => by
      obtain ⟨hd, hrest⟩ := Class.declaration?_of_drop hdrop
      rw [Module.declareBody] at h
      split at h
      · cases h
      · split at h
        · rename_i child m₁ heq
          obtain ⟨rfl, hb₁⟩ := hb.declare d hd heq
          have hnext := (hb₁.close hd).declareBody rest hrest h
          rwa [List.length_cons, show i + (rest.length + 1) = i + 1 + rest.length by omega]
        · cases h

end

/-! ## Declarations at fault -/

/-- Where declaring a body stops, there is what there is at that moment, and the declaration there is
refused. -/
theorem StopsAt.begun {base m m' : Module} {p : Class} {i j : Nat} {outer : Place} {path : List Nat}
    {scope : ObjectId} {ds : List Declaration} {d : Declaration} {e : Diagnostic}
    (h : StopsAt scope m ds j path d e m') (hb : Begun base p (i :: outer) m)
    (hscope : scope = p.idIn base outer) (hdrop : (p.bodyAt outer).drop i = ds) :
    ∃ k around, path.reverse ++ (i + j) :: outer = k :: around ∧
      p.declaration? (k :: around) = some d ∧ Begun base p (k :: around) m' ∧
      m'.Refuses (p.idIn base around) d e := by
  -- Along the way to the declaration at fault, each step of which leads to a later moment.
  induction h generalizing i outer with
  | here hrefuses =>
      obtain ⟨hd, -⟩ := Class.declaration?_of_drop hdrop
      subst hscope
      exact ⟨i, outer, rfl, hd, hb, hrefuses⟩
  | @behind _ _ _ _ _ _ _ _ j path _ _ hdeclare _ ih =>
      obtain ⟨hd, hrest⟩ := Class.declaration?_of_drop hdrop
      subst hscope
      obtain ⟨rfl, hb₁⟩ := hb.declare _ hd hdeclare
      obtain ⟨k, around, hplace, hstops⟩ := ih (hb₁.close hd) rfl hrest
      exact ⟨k, around, by rw [← hplace, show i + (j + 1) = i + 1 + j by omega], hstops⟩
  | @inside scope m m' name body rest span d j path e _ _ ih =>
      obtain ⟨hd, -⟩ := Class.declaration?_of_drop hdrop
      subst hscope
      have hopen := hb.open hd (o := .ofClass name (some (p.idIn base outer)) .empty) ⟨_, rfl⟩ rfl
      have hbody : (p.bodyAt (i :: outer)).drop 0 = body := by
        rw [Class.bodyAt_of_declaration? hd, List.drop_zero]
        rfl
      obtain ⟨k, around, hplace, hstops⟩ := ih hopen hb.size_eq hbody
      exact ⟨k, around, by simpa using hplace, hstops⟩

/-- In front of the declaration at which declaring stops there are the declarations that are listed in
front of it. -/
theorem StopsAt.exists_placesFrom {m m' : Module} {scope : ObjectId} {ds : List Declaration} {j : Nat}
    {path : List Nat} {d : Declaration} {e : Diagnostic} (h : StopsAt scope m ds j path d e m')
    (outer : Place) (i : Nat) :
    ∃ later, placesFrom outer i ds =
      placesFrom outer i (declarationsInFront ds j path) ++
        (path.reverse ++ (i + j) :: outer) :: later := by
  induction h generalizing outer i with
  | here => exact ⟨_, rfl⟩
  | @behind _ _ _ _ _ first _ rest j path _ _ _ _ ih =>
      obtain ⟨later, hlater⟩ := ih outer (i + 1)
      refine ⟨later, ?_⟩
      rw [declarationsInFront_succ, placesFrom, placesFrom, hlater,
        show i + (j + 1) = i + 1 + j by omega]
      simp
  | @inside scope m m' name body rest span d j path e _ _ ih =>
      obtain ⟨later, hlater⟩ := ih (i :: outer) 0
      refine ⟨later ++ placesFrom outer (i + 1) rest, ?_⟩
      rw [declarationsInFront, List.getElem?_cons_zero]
      simp only [List.take_zero, List.nil_append, placesFrom, Declaration.placesIn, hlater]
      simp

/-- At a moment the object of a declaration that has begun is bound, unless it is a class around the
moment. -/
theorem Begun.bound_iff (hb : Begun base p (i :: outer) m) (hbase : base.WellFormed) {j : Nat}
    {around : Place} (hd : p.declaration? (j :: around) = some d)
    (hlt : p.number (j :: around) < p.number (i :: outer)) :
    m.Bound (p.idIn base (j :: around)) ↔ ¬ (j :: around) <:+ (i :: outer) := by
  constructor
  · rintro ⟨id, o, name, ho, hentry⟩
    rcases (hb.entries id o _ ho).1 hentry with ⟨o₀, ho₀, hold⟩ | ⟨k, outer', d', hd', hcomplete, -, heq⟩
    · have hbound := hbase.lt_size_of_bound ⟨id, o₀, name, ho₀, hold⟩
      exact absurd hbound (Nat.not_lt.2 (p.size_le_idIn_cons base j around))
    · rw [Class.idIn_inj hd hd' (Prod.mk.inj heq).2]
      exact hcomplete.2
  · intro hnot
    obtain ⟨e, he, hclass, -⟩ := Class.isClass_of_declaration?_cons hd
    obtain ⟨o, ho, -⟩ := hb.classAt he hclass (Nat.lt_trans (p.number_lt_cons j around) hlt)
    exact ⟨_, o, d.name, ho,
      (hb.entries _ o _ ho).2 (.inr ⟨j, around, d, hd, ⟨hlt, hnot⟩, rfl, rfl⟩)⟩

/-- What a program with a fault leaves behind. There is a declaration that is refused. Behind the objects
that were there stand those of the declarations in front of it, in the order of the text, each with its
kind, its name, the class around it and the names of its arguments. Classes around the declaration at
fault are bound nowhere, and each other new object is bound to its name in the class around it. There are
no other entries but those that were there, and what was there stays as it was. The declarations in front
of the one at fault can be declared alone, and lead to the same methods and fields. -/
theorem remains_of_fault (c : Class) (cs : List Class) (p : Class) (e : Diagnostic)
    (h : (((ofClass c).initAll cs).init p).1 = .error e) :
    let m := (ofClass c).initAll cs
    let m' := (m.init p).2
    ∃ n i outer d, p.places[n]? = some (i :: outer) ∧ p.declaration? (i :: outer) = some d ∧
      m'.Refuses (p.idIn m outer) d e ∧ m.Extends m' ∧ m'.size = m.size + n ∧
      (∀ k < n, ∃ j around b o, p.places[k]? = some (j :: around) ∧
        p.declaration? (j :: around) = some b ∧ p.idIn m (j :: around) = m.size + k ∧
        m'.get? (m.size + k) = some o ∧ b.HasObject (p.idIn m around) o ∧
        (m'.Bound (m.size + k) ↔ ¬ (j :: around) <:+ (i :: outer))) ∧
      (∀ id o entry, m'.get? id = some o →
        (entry ∈ o.entries ↔ (∃ o₀, m.get? id = some o₀ ∧ entry ∈ o₀.entries) ∨
          p.EntryAt m (i :: outer) id entry)) ∧
      (p.inFront (i :: outer)).places = p.places.take n ∧
      ∃ m'', m.init (p.inFront (i :: outer)) = (.ok (), m'') ∧ m'.KeepsMembers m'' := by
  intro m m'
  have hm : m.WellFormed := wellFormed_initAll c cs
  have hroot : m.ClassAt root := hm.open_root.classAt
  have hpos : 0 < m.size := hroot.lt_size
  obtain ⟨j, path, d, hstops⟩ : ∃ j path d, StopsAt root m p.body j path d e m' :=
    exists_stopsAt p.body h
  obtain ⟨i, outer, hplace, hd, hb, hrefuses⟩ :=
    hstops.begun (begun_self hroot p) (p.idIn_nil m).symm List.drop_zero
  obtain ⟨n, hn⟩ := List.mem_iff_getElem?.1 (Class.mem_places hd)
  have hnumber := Class.number_getElem?_places hn
  have hfront : (p.inFront (i :: outer)).body = declarationsInFront p.body j path := by
    rw [Class.inFront, ← hplace]
    simp
  refine ⟨n, i, outer, d, hn, hd, hrefuses, .init m p, ?_, fun k hk => ?_, hb.entries, ?_, ?_⟩
  · rw [hb.size_eq, Class.idIn_cons, hnumber]
    unfold ObjectId
    omega
  · have hlen := (List.getElem?_eq_some_iff.1 hn).1
    obtain ⟨q, hq⟩ : ∃ q, p.places[k]? = some q := ⟨_, List.getElem?_eq_getElem (by omega)⟩
    have hqnumber := Class.number_getElem?_places hq
    have hqmem := List.mem_of_getElem? hq
    obtain ⟨b, hbq⟩ := Class.declaration?_of_mem_places hqmem
    cases q with
    | nil => exact absurd hqmem p.nil_notMem_places
    | cons j around =>
        have hlt : p.number (j :: around) < p.number (i :: outer) := by omega
        have hid : p.idIn m (j :: around) = m.size + k := by
          rw [Class.idIn_cons, hqnumber]
          unfold ObjectId
          omega
        obtain ⟨o, ho, hobject⟩ := hb.objects j around b hbq hlt
        have hbound := hb.bound_iff hm hbq hlt
        rw [hid] at ho hbound
        exact ⟨j, around, b, o, hq, hbq, hid, ho, hobject, hbound⟩
  · obtain ⟨later, hlater⟩ := hstops.exists_placesFrom [] 0
    rw [hplace, ← hfront] at hlater
    have hplaces : p.places = (p.inFront (i :: outer)).places ++ (i :: outer) :: later := hlater
    -- The number of the place at fault tells how many are in front of it.
    have hindex : p.places[(p.inFront (i :: outer)).places.length]? = some (i :: outer) := by
      rw [hplaces]
      simp
    have hlen := Class.number_getElem?_places hindex
    rw [hplaces, show n = (p.inFront (i :: outer)).places.length by omega, List.take_left]
  · obtain ⟨m'', hinit, hkeeps⟩ := hstops.exists_front
    rw [← hfront] at hinit
    exact ⟨m'', hinit, hkeeps⟩

/-- A class that is complete inside one with a fault is bound there, and that one nowhere. -/
theorem remains_of_fault_inner :
    let inner : Declaration := .classDef "Inner" [] default
    let faulty : Declaration :=
      .classDef "Outer" [inner, .field ⟨"x", .identifier "Missing" default, default⟩] default
    let m := (ofClass ⟨"module", [], default⟩).initAll [⟨"module", [.classDef "A" [] default], default⟩]
    let p : Class := ⟨"module", [.classDef "B" [] default, faulty], default⟩
    (m.init p).1 = .error (.semantic (.unknownName "Missing") default) ∧
    (m.init p).2.size = m.size + 3 ∧ ¬ (m.init p).2.Bound (m.size + 1) ∧
    (m.init p).2.Bound (m.size + 2) := by
  intro inner faulty m p
  have h : (m.init p).1 = .error (.semantic (.unknownName "Missing") default) := by
    decide +kernel
  have hsize : (m.init p).2.size = m.size + 3 := by decide +kernel
  obtain ⟨n, i, outer, d, hn, -, -, -, hlast, hobjects, -⟩ := remains_of_fault _ _ p _ h
  obtain rfl : 3 = n := Nat.add_left_cancel (hsize.symm.trans hlast)
  obtain ⟨rfl, rfl⟩ : 1 = i ∧ [1] = outer := List.cons.inj (Option.some.inj hn)
  obtain ⟨j, around, -, -, houter, -, -, -, -, hunbound⟩ := hobjects 1 (by decide)
  obtain ⟨rfl, rfl⟩ : 1 = j ∧ [] = around := List.cons.inj (Option.some.inj houter)
  obtain ⟨j, around, -, -, hinner, -, -, -, -, hbound⟩ := hobjects 2 (by decide)
  obtain ⟨rfl, rfl⟩ : 0 = j ∧ [1] = around := List.cons.inj (Option.some.inj hinner)
  exact ⟨h, hsize, fun hbad => hunbound.1 hbad (List.suffix_cons _ _), hbound.2 (by decide)⟩

end Module

end Bucket
