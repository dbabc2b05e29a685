/-
# What a fault leaves behind

A program with a fault leaves objects in a module: those of the declarations in front of the fault,
which are known by their names, and those that the declaration at fault added inside, which no name
leads to. The latter only take up places. Whatever is declared next is declared as it would be without
them, in other places (`Module.Skips.declareBody`), and names never lead to them
(`Module.Skips.sameUpTo`). So a program with a fault can be cut off in front of it
(`Module.init_of_fault`).
-/
import Bucket.Proofs.Scoping.Invariant

namespace Bucket

/-! ## Objects in other places -/

namespace Object

/-- The same object when all objects lie in other places. -/
def renumber (ρ : ObjectId → ObjectId) : Object → Object
  | ofClass name parent scope =>
      ofClass name (parent.map ρ) ⟨scope.bindings.map (Prod.map id ρ)⟩
  | ofMethod name parent arguments returns =>
      ofMethod name (ρ parent) (arguments.map (Prod.map id ρ)) (returns.map ρ)
  | ofField name parent type => ofField name (ρ parent) (ρ type)

variable {ρ : ObjectId → ObjectId} {o : Object} {name : String} {place : ObjectId}

@[simp] theorem parent?_renumber : (o.renumber ρ).parent? = o.parent?.map ρ := by
  cases o <;> rfl

@[simp] theorem isClass_renumber : (o.renumber ρ).isClass = o.isClass := by
  cases o <;> rfl

/-- A name stands for the same object as before, in its other place. -/
theorem member?_renumber : (o.renumber ρ).member? name = (o.member? name).map ρ := by
  cases o with
  | ofMethod n parent arguments returns => rfl
  | ofField n parent type => rfl
  | ofClass n parent scope =>
      obtain ⟨bindings⟩ := scope
      change (bindings.map (Prod.map id ρ)).lookup name = (bindings.lookup name).map ρ
      induction bindings with
      | nil => rfl
      | cons b rest ih =>
          rw [List.map_cons, List.lookup_cons, List.lookup_cons, ih, Prod.map_fst, Prod.map_snd]
          change (match name == b.1 with | true => _ | false => _) = _
          cases name == b.1 <;> rfl

theorem renumber_bind : (o.bind name place).renumber ρ = (o.renumber ρ).bind name (ρ place) := by
  cases o with
  | ofMethod n parent arguments returns => rfl
  | ofField n parent type => rfl
  | ofClass n parent scope => simp [bind, renumber, Scope.bind]

/-- Names stay where they are when all that they lead to stays in its place. -/
theorem map_eq_self {bindings : List (String × ObjectId)}
    (h : ∀ i ∈ bindings.map Prod.snd, ρ i = i) : bindings.map (Prod.map id ρ) = bindings := by
  rw [List.map_congr_left (g := id), List.map_id]
  intro b hb
  exact Prod.ext rfl (h _ (List.mem_map_of_mem hb))

/-- An object stays as it is when all that it refers to stays in its place. -/
theorem renumber_eq_self (h : ∀ i ∈ o.references, ρ i = i) : o.renumber ρ = o := by
  have hoption : ∀ x : Option ObjectId, (∀ i ∈ x, ρ i = i) → x.map ρ = x := by
    rintro (_ | i) hx
    · rfl
    · exact congrArg some (hx i rfl)
  simp only [references, List.mem_append, Option.mem_toList] at h
  have hparent := hoption o.parent? fun i hi => h i (.inl (.inl hi))
  cases o with
  | ofClass n parent scope =>
      have hbindings := map_eq_self fun i hi => h i (.inr hi)
      exact congr (congrArg (ofClass n) hparent) (congrArg Scope.mk hbindings)
  | ofMethod n parent arguments returns =>
      have htypes : ∀ i ∈ arguments.map Prod.snd ++ returns.toList, ρ i = i :=
        fun i hi => h i (.inl (.inr hi))
      have harguments := map_eq_self fun i hi => htypes i (List.mem_append_left _ hi)
      have hreturns := hoption returns fun i hi =>
        htypes i (List.mem_append_right _ (Option.mem_toList.2 hi))
      rw [renumber, Option.some.inj hparent, harguments, hreturns]
  | ofField n parent type =>
      rw [renumber, Option.some.inj hparent, h type (.inl (.inr (List.mem_singleton_self type)))]

end Object

/-- A class with no more than the first declarations of its body. -/
def Class.upTo (i : Nat) (c : Class) : Class := { c with body := c.body.take i }

namespace Module

/-! ## Modules with more objects in between -/

/-- The place of an object when more objects lie in front of those from a place on. -/
def past (first more : Nat) (id : ObjectId) : ObjectId := if id < first then id else id + more

/-- Whether a module holds the objects of another one, and more objects in front of those from a
place on. The objects of the other module refer to each other alone. -/
structure Skips (first more : Nat) (m m' : Module) : Prop where
  first_le : first ≤ m.size
  size_eq : m'.size = m.size + more
  get?_eq : ∀ id, m'.get? (past first more id) = (m.get? id).map (·.renumber (past first more))

section

variable {first more : Nat} {m m' : Module} {i j : ObjectId}

theorem past_of_lt (h : i < first) : past first more i = i := if_pos h

theorem past_root (h : 0 < first) : past first more root = root := past_of_lt h

theorem past_of_le (h : first ≤ i) : past first more i = i + more := if_neg (Nat.not_lt.2 h)

/-- The order of the objects stays the same. -/
theorem past_lt_past_iff : past first more i < past first more j ↔ i < j := by
  unfold past ObjectId at *
  split <;> split <;> omega

theorem past_injective (first more : Nat) : Function.Injective (past first more) := by
  intro i j heq
  rcases Nat.lt_trichotomy i j with hlt | rfl | hlt
  · exact absurd heq (Nat.ne_of_lt (past_lt_past_iff.2 hlt))
  · rfl
  · exact absurd heq (Nat.ne_of_gt (past_lt_past_iff.2 hlt))

namespace Skips

/-- What is looked up is found in its other place. -/
theorem lookup (h : Skips first more m m') (scope : ObjectId) (name : String) :
    m'.lookup (past first more scope) name = (m.lookup scope name).map (past first more) := by
  fun_induction m.lookup scope name with
  | case1 scope hnone =>
      rw [Module.lookup, h.get?_eq, hnone]
      rfl
  | case2 scope o ho found hmember =>
      rw [Module.lookup, h.get?_eq, ho]
      simp [Object.member?_renumber, hmember]
  | case3 scope o ho outer hparent hmember hlt ih =>
      rw [Module.lookup, h.get?_eq, ho]
      simp [Object.member?_renumber, hmember, hparent, past_lt_past_iff, hlt, ih]
  | case4 scope o ho outer hparent hmember hlt =>
      rw [Module.lookup, h.get?_eq, ho]
      simp [Object.member?_renumber, hmember, hparent, past_lt_past_iff, hlt]
  | case5 scope o ho hparent hmember =>
      rw [Module.lookup, h.get?_eq, ho]
      simp [Object.member?_renumber, hmember, hparent]

theorem declares (h : Skips first more m m') (id : ObjectId) (name : String) :
    m'.declares (past first more id) name = m.declares id name := by
  rw [Module.declares, Module.declares, h.get?_eq]
  cases m.get? id with
  | none => rfl
  | some o => simp [Object.member?_renumber]

/-- A type stands for the same class, in its other place, or is at fault as before. -/
theorem lookupClass (h : Skips first more m m') (scope : ObjectId) (type : Expression) :
    m'.lookupClass (past first more scope) type =
      (m.lookupClass scope type).map (past first more) := by
  rw [Module.lookupClass, Module.lookupClass]
  cases type.name? with
  | none => rfl
  | some name =>
      simp only [h.lookup]
      cases m.lookup scope name with
      | none => rfl
      | some id =>
          simp only [Option.map_some, h.get?_eq, Option.any_map, Object.isClass_renumber]
          split <;> rfl

theorem lookupArguments (h : Skips first more m m') (scope : ObjectId) (as : List Argument) :
    m'.lookupArguments (past first more scope) as =
      (m.lookupArguments scope as).map (List.map (Prod.map id (past first more))) := by
  induction as with
  | nil => rfl
  | cons a rest ih =>
      rw [Module.lookupArguments, Module.lookupArguments, h.lookupClass, ih]
      cases m.lookupClass scope a.type with
      | error d => rfl
      | ok type => cases m.lookupArguments scope rest <;> rfl

theorem lookupReturns (h : Skips first more m m') (scope : ObjectId)
    (returns : Option Expression) :
    m'.lookupReturns (past first more scope) returns =
      (m.lookupReturns scope returns).map (Option.map (past first more)) := by
  cases returns with
  | none => rfl
  | some type =>
      rw [Module.lookupReturns, Module.lookupReturns, h.lookupClass]
      cases m.lookupClass scope type <;> rfl

theorem methodObject (h : Skips first more m m') (parent : ObjectId) (method : Method) :
    m'.methodObject (past first more parent) method =
      (m.methodObject parent method).map (·.renumber (past first more)) := by
  rw [Module.methodObject, Module.methodObject, h.lookupArguments, h.lookupReturns]
  cases m.lookupArguments parent method.arguments with
  | error d => rfl
  | ok arguments => cases m.lookupReturns parent method.returns <;> rfl

theorem fieldObject (h : Skips first more m m') (parent : ObjectId) (field : Field) :
    m'.fieldObject (past first more parent) field =
      (m.fieldObject parent field).map (·.renumber (past first more)) := by
  rw [Module.fieldObject, Module.fieldObject, h.lookupClass]
  cases m.lookupClass parent field.type <;> rfl

/-- The next object that is added lies behind those in between. -/
theorem past_size (h : Skips first more m m') : past first more m.size = m'.size := by
  rw [past_of_le h.first_le, h.size_eq]

theorem add (h : Skips first more m m') (o : Object) :
    Skips first more (m.add o).2 (m'.add (o.renumber (past first more))).2 := by
  constructor
  case first_le =>
    rw [size_add]
    exact Nat.le_succ_of_le h.first_le
  case size_eq =>
    rw [size_add, size_add, h.size_eq]
    exact Nat.add_right_comm m.size more 1
  case get?_eq =>
    intro id
    simp only [get?_add, ← h.past_size, h.get?_eq, (past_injective first more).eq_iff]
    split <;> rfl

theorem bind (h : Skips first more m m') (scope id : ObjectId) (name : String) :
    Skips first more (m.bind scope name id)
      (m'.bind (past first more scope) name (past first more id)) := by
  constructor
  case first_le =>
    rw [size_bind]
    exact h.first_le
  case size_eq =>
    rw [size_bind, size_bind, h.size_eq]
  case get?_eq =>
    intro id'
    simp only [get?_bind, h.get?_eq, (past_injective first more).eq_iff]
    split
    · cases m.get? id' with
      | none => rfl
      | some o => exact congrArg some Object.renumber_bind.symm
    · rfl

/-! ## Declaring -/

/-- A method or a field is added behind the objects in between, or is at fault as before. -/
theorem addResult (h : Skips first more m m') (result : Except Diagnostic Object) :
    (m'.addResult (result.map (·.renumber (past first more)))).1 =
        (m.addResult result).1.map (past first more) ∧
      Skips first more (m.addResult result).2
        (m'.addResult (result.map (·.renumber (past first more)))).2 := by
  cases result with
  | ok o => exact ⟨congrArg Except.ok h.past_size.symm, h.add o⟩
  | error d => exact ⟨rfl, h⟩

mutual

/-- A declaration adds the same objects, in their other places, and is at fault as before. -/
theorem declare {m m' : Module} (h : Skips first more m m') (parent : ObjectId) :
    (d : Declaration) →
      (m'.declare (past first more parent) d).1 =
          (m.declare parent d).1.map (past first more) ∧
        Skips first more (m.declare parent d).2 (m'.declare (past first more parent) d).2
  | .classDef name body span => by
      have hadd : Skips first more (m.add (.ofClass name (some parent) .empty)).2
          (m'.add (.ofClass name (some (past first more parent)) .empty)).2 := h.add _
      have hbody := hadd.declareBody m.size body
      rw [h.past_size] at hbody
      rw [Module.declare, Module.declare]
      simp only [fst_add]
      generalize Module.declareBody m'.size _ body = p' at hbody ⊢
      generalize Module.declareBody m.size _ body = p at hbody ⊢
      obtain ⟨result, m₁⟩ := p
      obtain ⟨result', m₁'⟩ := p'
      obtain ⟨rfl, hmodule⟩ := hbody
      cases result' with
      | ok u => exact ⟨congrArg Except.ok h.past_size.symm, hmodule⟩
      | error e => exact ⟨rfl, hmodule⟩
  | .method method => by
      rw [Module.declare, Module.declare, h.methodObject]
      exact h.addResult _
  | .field field => by
      rw [Module.declare, Module.declare, h.fieldObject]
      exact h.addResult _

/-- The body of a class declares the same, in other places, and is at fault as before. -/
theorem declareBody {m m' : Module} (h : Skips first more m m') (id : ObjectId) :
    (ds : List Declaration) →
      (m'.declareBody (past first more id) ds).1 = (m.declareBody id ds).1 ∧
        Skips first more (m.declareBody id ds).2 (m'.declareBody (past first more id) ds).2
  | [] => ⟨rfl, h⟩
  | d :: rest => by
      have hd := h.declare id d
      rw [Module.declareBody, Module.declareBody, h.declares]
      split
      · exact ⟨rfl, h⟩
      · generalize Module.declare (past first more id) m' d = p' at hd ⊢
        generalize Module.declare id m d = p at hd ⊢
        obtain ⟨result, m₁⟩ := p
        obtain ⟨result', m₁'⟩ := p'
        obtain ⟨rfl, hmodule⟩ := hd
        cases result with
        | ok child => exact (hmodule.bind id child d.name).declareBody id rest
        | error e => exact ⟨rfl, hmodule⟩

end

/-- What keeps all objects of a well-formed module holds them with more of them behind. -/
theorem of_keeps (hm : m.WellFormed)
    (hkeeps : ∀ i o, m.get? i = some o → m'.get? i = some o) :
    Skips m.size (m'.size - m.size) m m' := by
  have hsize : m.size ≤ m'.size := by
    by_contra hlt
    obtain ⟨o, ho⟩ := exists_get? (Nat.lt_of_not_le hlt)
    exact absurd (lt_size_of_get? (hkeeps _ o ho)) (Nat.lt_irrefl _)
  constructor
  case first_le => exact Nat.le_refl _
  case size_eq => exact (Nat.add_sub_cancel' hsize).symm
  case get?_eq =>
    intro i
    by_cases hi : i < m.size
    · obtain ⟨o, ho⟩ := exists_get? hi
      have hself : o.renumber (past m.size (m'.size - m.size)) = o :=
        Object.renumber_eq_self fun j hj => past_of_lt (hm.lt_size_of_mem_references ho hj)
      rw [past_of_lt hi, hkeeps i o ho, ho, Option.map_some, hself]
    · -- Behind the objects of the one module there is nothing, and so behind those of the other.
      have hle := Nat.le_of_not_lt hi
      rw [past_of_le hle, get?, get?, Array.getElem?_eq_none hle]
      refine Array.getElem?_eq_none ?_
      calc m'.size = m.size + (m'.size - m.size) := (Nat.add_sub_cancel' hsize).symm
        _ ≤ i + (m'.size - m.size) := Nat.add_le_add_right hle _

end Skips

/-! ## Objects that names lead to -/

/-- Whether names lead to an object, from the module itself on. -/
inductive Reachable (m : Module) : ObjectId → Prop where
  | root : Reachable m root
  | member {scope id : ObjectId} {o : Object} {name : String} :
      Reachable m scope → m.get? scope = some o → o.member? name = some id → Reachable m id

/-- Whether a module is another one with its objects in other places. It may hold more objects, but
no names lead to those. -/
structure SameUpTo (ρ : ObjectId → ObjectId) (m m' : Module) : Prop where
  injective : Function.Injective ρ
  root_eq : ρ root = root
  get?_eq : ∀ id, m'.get? (ρ id) = (m.get? id).map (·.renumber ρ)
  reachable_iff : ∀ id', m'.Reachable id' ↔ ∃ id, m.Reachable id ∧ ρ id = id'

/-- No names lead to the objects in between. -/
theorem Skips.sameUpTo (h : Skips first more m m') (hfirst : 0 < first) :
    SameUpTo (past first more) m m' := by
  have hroot : past first more root = root := past_root hfirst
  refine ⟨past_injective first more, hroot, h.get?_eq, fun id' => ⟨fun hid' => ?_, ?_⟩⟩
  · induction hid' with
    | root => exact ⟨root, .root, hroot⟩
    | member _ ho hmember ih =>
        obtain ⟨scope, hscope, rfl⟩ := ih
        rw [h.get?_eq] at ho
        obtain ⟨o, ho', rfl⟩ := Option.map_eq_some_iff.1 ho
        rw [Object.member?_renumber] at hmember
        obtain ⟨id, hid, rfl⟩ := Option.map_eq_some_iff.1 hmember
        exact ⟨id, hscope.member ho' hid, rfl⟩
  · rintro ⟨id, hid, rfl⟩
    induction hid with
    | root =>
        rw [hroot]
        exact .root
    | @member scope id o name _ ho hmember ih =>
        have ho' : m'.get? (past first more scope) = some (o.renumber (past first more)) := by
          rw [h.get?_eq, ho, Option.map_some]
        have hmember' : (o.renumber (past first more)).member? name = some (past first more id) := by
          rw [Object.member?_renumber, hmember, Option.map_some]
        exact ih.member ho' hmember'

/-! ## Going on after a fault -/

/-- A fault in a body of one declaration keeps all objects, even the class with that body. -/
theorem get?_declareBody_singleton {id i : ObjectId} {d : Declaration} {e : Diagnostic} {o : Object}
    (h : (m.declareBody id [d]).1 = .error e) (ho : m.get? i = some o) :
    (m.declareBody id [d]).2.get? i = some o := by
  have hkept := get?_declare id m d ho
  rw [declareBody] at h ⊢
  split
  case isTrue => exact ho
  case isFalse hdeclares =>
    rw [if_neg hdeclares] at h
    generalize m.declare id d = p at h hkept ⊢
    obtain ⟨result, m₁⟩ := p
    cases result with
    | ok child => cases h
    | error e' => exact hkept

/-- A body with a fault has a first declaration at fault. What is in front of it can be declared
without a fault, and what that adds is kept. -/
theorem exists_fault {id : ObjectId} {ds : List Declaration} {e : Diagnostic}
    (h : (m.declareBody id ds).1 = .error e) :
    ∃ j < ds.length, (∀ i, (m.declareBody id (ds.take i)).1 = .ok () ↔ i ≤ j) ∧
      ∀ i o, (m.declareBody id (ds.take j)).2.get? i = some o →
        (m.declareBody id ds).2.get? i = some o := by
  induction ds generalizing m with
  | nil => cases h
  | cons d rest ih =>
      have hcons := m.declareBody_append id [d]
      have hkept : ∀ {e' i o}, (m.declareBody id [d]).1 = .error e' → m.get? i = some o →
          (m.declareBody id [d]).2.get? i = some o := get?_declareBody_singleton
      simp only [List.singleton_append] at hcons
      generalize m.declareBody id [d] = p at hcons hkept
      obtain ⟨_ | u, m₁⟩ := p
      · -- The first declaration is at fault.
        refine ⟨0, Nat.zero_lt_succ _, fun i => ?_, fun i o ho => ?_⟩
        · cases i with
          | zero => exact ⟨fun _ => Nat.le_refl 0, fun _ => rfl⟩
          | succ i => simp [hcons]
        · rw [hcons]
          exact hkept rfl ho
      · -- The fault is in the rest.
        rw [hcons] at h
        obtain ⟨j, hj, hok, hkeeps⟩ := ih h
        refine ⟨j + 1, Nat.succ_lt_succ hj, fun i => ?_, fun i o ho => ?_⟩
        · cases i with
          | zero => exact ⟨fun _ => Nat.zero_le _, fun _ => rfl⟩
          | succ i =>
              rw [List.take_succ_cons, hcons, Nat.succ_le_succ_iff]
              exact hok i
        · rw [List.take_succ_cons, hcons] at ho
          rw [hcons]
          exact hkeeps i o ho

end

/-- A program with a fault has a first declaration at fault. For the next program it makes no
difference whether that declaration and those behind it stood there: it has the same fault or none, and
in the end names lead to the same objects, but for their places. -/
theorem init_of_fault (c : Class) (cs : List Class) (p : Class) (e : Diagnostic)
    (h : (((ofClass c).initAll cs).init p).1 = .error e) :
    let m := (ofClass c).initAll cs
    ∃ j < p.body.length, (∀ i, (m.init (p.upTo i)).1 = .ok () ↔ i ≤ j) ∧
      ∀ q, ((m.init p).2.init q).1 = ((m.init (p.upTo j)).2.init q).1 ∧
        ∃ ρ, SameUpTo ρ ((m.init (p.upTo j)).2.init q).2 ((m.init p).2.init q).2 := by
  intro m
  obtain ⟨j, hj, hok, hkeeps⟩ := exists_fault h
  refine ⟨j, hj, hok, fun q => ?_⟩
  have hm : m.WellFormed := wellFormed_initAll c cs
  have hm₁ : (m.init (p.upTo j)).2.WellFormed :=
    hm.steps (steps_declareBody hm hm.open_root (p.body.take j))
  have hskips := Skips.of_keeps hm₁ hkeeps
  have hfirst : 0 < (m.init (p.upTo j)).2.size := hm₁.open_root.classAt.lt_size
  obtain ⟨hresult, hmodule⟩ := hskips.declareBody root q.body
  rw [past_root hfirst] at hresult hmodule
  exact ⟨hresult, _, hmodule.sameUpTo hfirst⟩

/-- A class that is complete inside one with a fault makes no difference. -/
theorem init_of_fault_inner :
    let inner : Declaration := .classDef "Inner" [] default
    let faulty : Declaration :=
      .classDef "Outer" [inner, .field ⟨"x", .identifier "Missing" default, default⟩] default
    let m := (ofClass ⟨"module", [], default⟩).initAll [⟨"module", [.classDef "A" [] default], default⟩]
    let p : Class := ⟨"module", [.classDef "B" [] default, faulty], default⟩
    (m.init p).1 = .error (.semantic (.unknownName "Missing") default) ∧
    ∃ j < 2, (∀ i, (m.init (p.upTo i)).1 = .ok () ↔ i ≤ j) ∧
      ∀ q, ((m.init p).2.init q).1 = ((m.init (p.upTo j)).2.init q).1 ∧
        ∃ ρ, SameUpTo ρ ((m.init (p.upTo j)).2.init q).2 ((m.init p).2.init q).2 := by
  intro inner faulty m p
  have h : (m.init p).1 = .error (.semantic (.unknownName "Missing") default) := by
    decide +kernel
  exact ⟨h, init_of_fault _ _ p _ h⟩

end Module

end Bucket
