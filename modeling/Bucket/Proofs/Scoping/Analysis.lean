/-
# Analysis follows the rule for names

The pass over a tree that declares all its names either stops at the first fault in the order of the
text or ends with one object for every declaration (`Arena.declareBody`, with `Arena.declare` for one
declaration). So a program is accepted exactly when it is well scoped, and its objects are the
declarations in the order of the text.
-/
import Bucket.Proofs.Scoping.Arena

namespace Bucket

namespace Class

/-! ## From moment to moment -/

/-- The entries of a class grow by the declaration that becomes complete. -/
theorem entries_succ {c : Class} {i : Nat} {outer : Place} {d : Declaration}
    (h : c.declaration? (i :: outer) = some d) :
    c.entries outer (i + 1) = c.entries outer i ++ [(d.name, c.number (i :: outer))] := by
  rw [declaration?_cons] at h
  have hlen : i < (c.bodyAt outer).length := (List.getElem?_eq_some_iff.1 h).1
  rw [entries, List.take_add_one, h, Option.toList_some, List.mapIdx_concat, List.length_take,
    Nat.min_eq_left (Nat.le_of_lt hlen), entries]

/-- What a module holds of a class when the name of one more declaration in it is bound. -/
theorem records_bind {c : Class} {i : Nat} {outer : Place} {d e : Declaration} {o : Object}
    (hd : c.declaration? (i :: outer) = some d) (he : e.isClass) (h : c.Records outer i e o) :
    c.Records outer (i + 1) e (o.bind d.name (c.number (i :: outer))) := by
  cases e with
  | classDef name body span =>
      obtain rfl : o = _ := h
      show _ = Object.ofClass name (c.enclosing? outer) ⟨c.entries outer (i + 1)⟩
      rw [entries_succ hd]
      rfl
  | method m => simp [Declaration.isClass, Declaration.class?] at he
  | field f => simp [Declaration.isClass, Declaration.class?] at he

/-- Adding the object of a declaration leads to the moment inside that declaration. -/
theorem Arena.open {c : Class} {i : Nat} {outer : Place} {m : Module} {d : Declaration} {o : Object}
    (ha : c.Arena (i :: outer) m) (hd : c.declaration? (i :: outer) = some d)
    (ho : c.Records (i :: outer) 0 d o) : c.Arena (0 :: i :: outer) (m.add o).2 := by
  constructor
  · rw [Module.size_add, ha.size_eq, number_first]
  · intro place e he hlt
    rw [number_first] at hlt
    rw [Module.get?_add, ha.size_eq]
    -- A number belongs to one declaration only, so no older object is touched.
    by_cases hnum : c.number place = c.number (i :: outer)
    · obtain rfl := number_inj he hd hnum
      obtain rfl : e = d := Option.some.inj (he.symm.trans hd)
      exact ⟨o, if_pos rfl, by simpa [progress] using ho⟩
    · have hne : i :: outer ≠ place := fun h => hnum (by rw [h])
      obtain ⟨o', ho', hrec⟩ := ha.records place e he (by omega)
      exact ⟨o', by rw [if_neg hnum, ho'], by rwa [progress, if_neg hne]⟩

/-- Binding the name of a complete declaration leads to the moment behind it. -/
theorem Arena.close {c : Class} {i : Nat} {outer : Place} {m : Module} {d : Declaration}
    (ha : c.Arena (d.body.length :: i :: outer) m) (hd : c.declaration? (i :: outer) = some d) :
    c.Arena ((i + 1) :: outer) (m.bind (c.number outer) d.name (c.number (i :: outer))) := by
  constructor
  · rw [Module.size_bind, ha.size_eq, number_last hd]
  · intro place e he hlt
    rw [← number_last hd] at hlt
    obtain ⟨o, ho, hrec⟩ := ha.records place e he hlt
    obtain ⟨e', he', hclass, -⟩ := isClass_of_declaration?_cons hd
    rw [Module.get?_bind, ho]
    -- Only the class around gets the name. All other objects stay as they are.
    by_cases hnum : c.number outer = c.number place
    · obtain rfl := number_inj he' he hnum
      obtain rfl : e = e' := Option.some.inj (he.symm.trans he')
      rw [c.progress_of_suffix (List.suffix_cons _ _)] at hrec
      refine ⟨o.bind d.name (c.number (i :: outer)), by simp, ?_⟩
      rw [c.progress_of_suffix (List.suffix_refl _)]
      exact records_bind hd hclass hrec
    · have hne : outer ≠ place := fun h => hnum (by rw [h])
      refine ⟨o, if_neg hnum, ?_⟩
      rw [progress, if_neg hne]
      -- The declaration itself is no longer around the moment, and is complete now.
      by_cases hin : i :: outer = place
      · subst hin
        rw [c.progress_of_suffix (List.suffix_refl _)] at hrec
        rwa [c.progress_eq_length (by simp), bodyAt_of_declaration? hd]
      · rwa [progress, if_neg hin, progress, if_neg hne] at hrec

/-! ## Types -/

section Types

variable {c : Class} {i : Nat} {outer : Place} {m : Module} {e : Declaration}

/-- The types of arguments are looked up from left to right. -/
theorem Arena.lookupArguments (ha : c.Arena (i :: outer) m) (he : c.declaration? outer = some e)
    (hclass : e.isClass) (args : List Argument) :
    match (args.map (·.type)).findSome? (c.typeFault? (i :: outer)) with
    | some d => m.lookupArguments (c.number outer) args = .error d
    | none => ∃ found, m.lookupArguments (c.number outer) args = .ok found ∧
        List.Forall₂ (fun a (p : String × ObjectId) =>
          p.1 = a.name ∧ c.Denotes (i :: outer) a.type p.2) args found := by
  -- The first type that has a fault ends the search, and so it does the lookup.
  induction args with
  | nil => exact ⟨[], rfl, .nil⟩
  | cons a rest ih =>
      have hfirst := ha.lookupClass he hclass a.type
      rw [List.map_cons, List.findSome?_cons]
      cases hf : c.typeFault? (i :: outer) a.type with
      | some d =>
          rw [hf] at hfirst
          simp only [Module.lookupArguments, hfirst]
          rfl
      | none =>
          rw [hf] at hfirst
          obtain ⟨id, hid, hden⟩ := hfirst
          cases hr : (rest.map (·.type)).findSome? (c.typeFault? (i :: outer)) with
          | some d =>
              rw [hr] at ih
              simp only [Module.lookupArguments, hid, ih]
              rfl
          | none =>
              rw [hr] at ih
              obtain ⟨found, hfound, hall⟩ := ih
              refine ⟨(a.name, id) :: found, ?_, .cons ⟨rfl, hden⟩ hall⟩
              simp only [Module.lookupArguments, hid, hfound]
              rfl

/-- The type of a result is looked up if there is one. -/
theorem Arena.lookupReturns (ha : c.Arena (i :: outer) m) (he : c.declaration? outer = some e)
    (hclass : e.isClass) (returns : Option Expression) :
    match returns.toList.findSome? (c.typeFault? (i :: outer)) with
    | some d => m.lookupReturns (c.number outer) returns = .error d
    | none => ∃ found, m.lookupReturns (c.number outer) returns = .ok found ∧
        Option.Rel (c.Denotes (i :: outer)) returns found := by
  cases returns with
  | none => exact ⟨none, rfl, .none⟩
  | some type =>
      have hfirst := ha.lookupClass he hclass type
      simp only [Option.toList_some, List.findSome?_cons, List.findSome?_nil]
      cases hf : c.typeFault? (i :: outer) type with
      | some d =>
          rw [hf] at hfirst
          simp only [Module.lookupReturns, hfirst]
          rfl
      | none =>
          rw [hf] at hfirst
          obtain ⟨id, hid, hden⟩ := hfirst
          refine ⟨some id, ?_, .some hden⟩
          simp only [Module.lookupReturns, hid]
          rfl

/-- The object of a method is made from the classes that its types stand for. -/
theorem Arena.methodObject (ha : c.Arena (i :: outer) m) (he : c.declaration? outer = some e)
    (hclass : e.isClass) (method : Method) :
    match (Declaration.method method).types.findSome? (c.typeFault? (i :: outer)) with
    | some d => m.methodObject (c.number outer) method = .error d
    | none => ∃ o, m.methodObject (c.number outer) method = .ok o ∧
        c.Records (i :: outer) 0 (.method method) o := by
  -- Arguments come before the result, in the text as in the lookup.
  have hargs := ha.lookupArguments he hclass method.arguments
  have hreturns := ha.lookupReturns he hclass method.returns
  rw [Declaration.types, List.findSome?_append]
  cases hf : (method.arguments.map (·.type)).findSome? (c.typeFault? (i :: outer)) with
  | some d =>
      rw [hf] at hargs
      simp only [Module.methodObject, hargs]
      rfl
  | none =>
      rw [hf] at hargs
      obtain ⟨args, hargs, hall⟩ := hargs
      rw [Option.none_or]
      cases hr : method.returns.toList.findSome? (c.typeFault? (i :: outer)) with
      | some d =>
          rw [hr] at hreturns
          simp only [Module.methodObject, hargs, hreturns]
          rfl
      | none =>
          rw [hr] at hreturns
          obtain ⟨returns, hreturns, hrel⟩ := hreturns
          refine ⟨.ofMethod method.name (c.number outer) args returns, ?_,
            _, args, returns, rfl, rfl, hall, hrel⟩
          simp only [Module.methodObject, hargs, hreturns]
          rfl

/-- The object of a field is made from the class that its type stands for. -/
theorem Arena.fieldObject (ha : c.Arena (i :: outer) m) (he : c.declaration? outer = some e)
    (hclass : e.isClass) (field : Field) :
    match (Declaration.field field).types.findSome? (c.typeFault? (i :: outer)) with
    | some d => m.fieldObject (c.number outer) field = .error d
    | none => ∃ o, m.fieldObject (c.number outer) field = .ok o ∧
        c.Records (i :: outer) 0 (.field field) o := by
  have hfirst := ha.lookupClass he hclass field.type
  simp only [Declaration.types, List.findSome?_cons, List.findSome?_nil]
  cases hf : c.typeFault? (i :: outer) field.type with
  | some d =>
      rw [hf] at hfirst
      simp only [Module.fieldObject, hfirst]
      rfl
  | none =>
      rw [hf] at hfirst
      obtain ⟨id, hid, hden⟩ := hfirst
      refine ⟨.ofField field.name (c.number outer) id, ?_, _, id, rfl, rfl, hden⟩
      simp only [Module.fieldObject, hid]
      rfl

end Types

end Class

/-! ## Declarations -/

/-- The first fault in a declaration and all that it holds, its own name left out. -/
def Class.faultIn? (c : Class) (place : Place) (d : Declaration) : Option Diagnostic :=
  (d.types.findSome? (c.typeFault? place)).or ((d.placesIn place).findSome? c.fault?)

/-- The first fault in the rest of a body: that of its first declaration, or one behind it. -/
theorem Class.findSome?_placesFrom_cons {c : Class} {i : Nat} {outer : Place} {d : Declaration}
    (hd : c.declaration? (i :: outer) = some d) (rest : List Declaration) :
    (placesFrom outer i (d :: rest)).findSome? c.fault? =
      if d.name ∈ (c.before (i :: outer)).map Declaration.name then
        some (.semantic (.redefinition d.name) d.span.start)
      else (c.faultIn? (i :: outer) d).or ((placesFrom outer (i + 1) rest).findSome? c.fault?) := by
  rw [placesFrom, List.findSome?_cons, List.findSome?_append]
  simp only [Class.fault?, hd, Class.faultIn?]
  by_cases hmem : d.name ∈ (c.before (i :: outer)).map Declaration.name
  · simp only [if_pos hmem]
  · simp only [if_neg hmem]
    cases d.types.findSome? (c.typeFault? (i :: outer)) <;> rfl

/-- A member is added when its object can be made. -/
theorem Class.Arena.addResult {c : Class} {i : Nat} {outer : Place} {m : Module} {d : Declaration}
    {result : Except Diagnostic Object} (ha : c.Arena (i :: outer) m)
    (hd : c.declaration? (i :: outer) = some d) (hbody : d.body = [])
    (hresult : match d.types.findSome? (c.typeFault? (i :: outer)) with
      | some e => result = .error e
      | none => ∃ o, result = .ok o ∧ c.Records (i :: outer) 0 d o) :
    match c.faultIn? (i :: outer) d with
    | some e => (m.addResult result).1 = .error e
    | none => ∃ m', m.addResult result = (.ok (c.number (i :: outer)), m') ∧
        c.Arena (d.body.length :: i :: outer) m' := by
  -- A member holds nothing, so only its own types can have a fault.
  have hplaces : d.placesIn (i :: outer) = [] := by
    rw [Declaration.placesIn_eq, hbody, placesFrom]
  rw [Class.faultIn?, hplaces, List.findSome?_nil, Option.or_none]
  cases hf : d.types.findSome? (c.typeFault? (i :: outer)) with
  | some e =>
      rw [hf] at hresult
      rw [hresult]
      rfl
  | none =>
      rw [hf] at hresult
      obtain ⟨o, rfl, hrec⟩ := hresult
      refine ⟨(m.add o).2, by rw [Module.addResult, Module.fst_add, ha.size_eq], ?_⟩
      rw [hbody]
      exact ha.open hd hrec

mutual

/-- Declaring one declaration stops at the first fault in it, or leads to the moment at its end. -/
theorem Class.Arena.declare {c : Class} {i : Nat} {outer : Place} {m : Module}
    (ha : c.Arena (i :: outer) m) :
    (d : Declaration) → c.declaration? (i :: outer) = some d →
      match c.faultIn? (i :: outer) d with
      | some e => (m.declare (c.number outer) d).1 = .error e
      | none => ∃ m', m.declare (c.number outer) d = (.ok (c.number (i :: outer)), m') ∧
          c.Arena (d.body.length :: i :: outer) m'
  | .classDef name body span, hd => by
      -- The object of the class is added first, and then its body is declared into it.
      have hopen := ha.open hd (o := .ofClass name (some (c.number outer)) .empty) rfl
      have hbody := hopen.declareBody body
        (by rw [Class.bodyAt_of_declaration? hd, List.drop_zero]; rfl) hd rfl
      simp only [Class.faultIn?, Declaration.types, List.findSome?_nil, Option.none_or,
        Declaration.placesIn, Module.declare, Module.fst_add, ha.size_eq]
      cases hf : (placesFrom (i :: outer) 0 body).findSome? c.fault? with
      | some e =>
          rw [hf] at hbody
          generalize Module.declareBody _ _ body = p at hbody
          obtain ⟨result, m'⟩ := p
          obtain rfl : result = _ := hbody
          rfl
      | none =>
          rw [hf] at hbody
          obtain ⟨m', hm', ha'⟩ := hbody
          simp only [hm']
          exact ⟨m', rfl, by simpa [Declaration.body] using ha'⟩
  | .method method, hd => by
      obtain ⟨e, he, hclass, -⟩ := Class.isClass_of_declaration?_cons hd
      exact ha.addResult hd rfl (ha.methodObject he hclass method)
  | .field field, hd => by
      obtain ⟨e, he, hclass, -⟩ := Class.isClass_of_declaration?_cons hd
      exact ha.addResult hd rfl (ha.fieldObject he hclass field)

/-- Declaring the rest of a body stops at the first fault in it, or leads to the moment at the end of
the body. -/
theorem Class.Arena.declareBody {c : Class} {i : Nat} {outer : Place} {m : Module}
    (ha : c.Arena (i :: outer) m) :
    (ds : List Declaration) → (c.bodyAt outer).drop i = ds → {e : Declaration} →
      c.declaration? outer = some e → e.isClass →
      match (placesFrom outer i ds).findSome? c.fault? with
      | some e => (m.declareBody (c.number outer) ds).1 = .error e
      | none => ∃ m', m.declareBody (c.number outer) ds = (.ok (), m') ∧
          c.Arena ((i + ds.length) :: outer) m'
  | [], _, _, _, _ => ⟨m, by rw [Module.declareBody], ha⟩
  | d :: rest, hdrop, e, he, hclass => by
      obtain ⟨hd, hrest⟩ := Class.declaration?_of_drop hdrop
      rw [Class.findSome?_placesFrom_cons hd, Module.declareBody]
      by_cases hmem : d.name ∈ (c.before (i :: outer)).map Declaration.name
      · have hdeclares := (ha.declares he hclass d.name).2 hmem
        simp only [if_pos hmem, if_pos hdeclares]
      · have hdeclares : ¬ m.declares (c.number outer) d.name := fun h =>
          hmem ((ha.declares he hclass d.name).1 h)
        rw [if_neg hmem, if_neg hdeclares]
        have hdeclare := ha.declare d hd
        cases hf : c.faultIn? (i :: outer) d with
        | some fault =>
            rw [hf] at hdeclare
            rw [Option.some_or]
            generalize m.declare (c.number outer) d = p at hdeclare
            obtain ⟨result, m'⟩ := p
            obtain rfl : result = _ := hdeclare
            rfl
        | none =>
            rw [hf] at hdeclare
            obtain ⟨m', hm', ha'⟩ := hdeclare
            -- The name is bound only now, when all that the declaration holds was declared.
            have hnext := (ha'.close hd).declareBody rest hrest he hclass
            rw [Option.none_or, hm', List.length_cons,
              show i + (rest.length + 1) = i + 1 + rest.length by omega]
            exact hnext

end

/-! ## Programs -/

namespace Class

/-- Before anything is declared there is the object of the whole class. -/
theorem arena_ofClass (c : Class) : c.Arena [0] (Module.ofClass c) := by
  constructor
  · rw [number_first]
    rfl
  · intro place d hd hlt
    rw [number_first] at hlt
    -- Only the whole class has a number below that of the first declaration.
    cases place with
    | nil =>
        obtain rfl : c.toDeclaration = d := Option.some.inj hd
        exact ⟨_, rfl, rfl⟩
    | cons i outer => simp only [number] at hlt; omega

/-- An analysis gives the first fault, or the objects that there are at the end. -/
theorem analyze_eq (c : Class) :
    match c.places.findSome? c.fault? with
    | some e => Module.analyze c = .error e
    | none => ∃ m, Module.analyze c = .ok m ∧ c.Arena [c.body.length] m := by
  have h := c.arena_ofClass.declareBody c.body rfl rfl rfl
  rw [places, Module.analyze, Module.init]
  cases hf : (placesFrom [] 0 c.body).findSome? c.fault? with
  | some e =>
      rw [hf] at h
      have h : ((Module.ofClass c).declareBody Module.root c.body).1 = .error e := h
      generalize (Module.ofClass c).declareBody Module.root c.body = p at h
      obtain ⟨result, m⟩ := p
      obtain rfl : result = _ := h
      rfl
  | none =>
      rw [hf, Nat.zero_add] at h
      obtain ⟨m, hm, ha⟩ := h
      have hm : (Module.ofClass c).declareBody Module.root c.body = (.ok (), m) := hm
      exact ⟨m, by rw [hm], ha⟩

/-- What is wrong with a program is wrong with one of its declarations. -/
theorem exists_fault?_of_analyze {c : Class} {e : Diagnostic} (h : Module.analyze c = .error e) :
    ∃ place ∈ c.places, c.fault? place = some e := by
  have hanalyze := c.analyze_eq
  cases hfault : c.places.findSome? c.fault? with
  | some e' =>
      rw [hfault] at hanalyze
      obtain rfl := Except.error.inj (hanalyze.symm.trans h)
      exact List.exists_of_findSome?_eq_some hfault
  | none =>
      rw [hfault] at hanalyze
      obtain ⟨m, hm, -⟩ := hanalyze
      cases hm.symm.trans h

/-- An analysis that goes through leaves the objects that there are at the end. -/
theorem arena_of_analyze {c : Class} {m : Module} (hm : Module.analyze c = .ok m) :
    c.Arena [c.body.length] m := by
  have h := c.analyze_eq
  cases hf : c.places.findSome? c.fault? with
  | some e =>
      rw [hf] at h
      cases h.symm.trans hm
  | none =>
      rw [hf] at h
      obtain ⟨m', hm', ha⟩ := h
      obtain rfl : m' = m := Except.ok.inj (hm'.symm.trans hm)
      exact ha

/-- An analysis goes through exactly when the program obeys the rule for names. -/
theorem exists_analyze_iff {c : Class} : (∃ m, Module.analyze c = .ok m) ↔ c.WellScoped := by
  have h := c.analyze_eq
  rw [wellScoped_iff, ← List.findSome?_eq_none_iff]
  cases hf : c.places.findSome? c.fault? with
  | some e =>
      rw [hf] at h
      simp [h]
  | none =>
      rw [hf] at h
      obtain ⟨m, hm, -⟩ := h
      simp [hm]

/-- At the end every class is complete. -/
theorem progress_end (c : Class) (place : Place) :
    c.progress [c.body.length] place = (c.bodyAt place).length := by
  rw [progress]
  split
  · rename_i h
    rw [← h, bodyAt_nil]
  · rfl

/-- At the end there is one object for the module and one for each declaration. -/
theorem number_end (c : Class) : c.number [c.body.length] = 1 + c.places.length := by
  rw [number, bodyAt_nil, List.take_length, length_places, number]

theorem number_end_eq_count (c : Class) : c.number [c.body.length] = c.toDeclaration.count := by
  rw [number_end, length_places, Declaration.count_eq, Nat.add_comm]
  rfl

/-- At the end the object of the module shows the names in its body. -/
theorem Arena.get?_root {c : Class} {m : Module} (ha : c.Arena [c.body.length] m) :
    m.get? Module.root = some (.ofClass c.name none ⟨c.entries [] c.body.length⟩) := by
  obtain ⟨o, ho, hrec⟩ := ha.records [] c.toDeclaration rfl (c.number_lt_cons _ [])
  rw [progress_end, bodyAt_nil] at hrec
  obtain rfl : o = _ := hrec
  exact ho

/-- At the end the objects behind that of the module are those of the declarations, in the order of
the text. -/
theorem Arena.get?_succ {c : Class} {m : Module} (ha : c.Arena [c.body.length] m) {n : Nat}
    {place : Place} (hplace : c.places[n]? = some place) :
    ∃ d o, c.declaration? place = some d ∧ m.get? (n + 1) = some o ∧
      c.Records place (c.bodyAt place).length d o := by
  have hnumber := number_getElem?_places hplace
  have hend := c.number_end
  obtain ⟨hn, -⟩ := List.getElem?_eq_some_iff.1 hplace
  obtain ⟨d, hd⟩ := declaration?_of_mem_places (List.mem_of_getElem? hplace)
  obtain ⟨o, ho, hrec⟩ := ha.records place d hd (by omega)
  rw [hnumber] at ho
  rw [progress_end] at hrec
  exact ⟨d, o, hd, ho, hrec⟩

/-- The first fault is that of some declaration before which there is none. -/
theorem findSome?_fault?_eq_some_iff {c : Class} {e : Diagnostic} :
    c.places.findSome? c.fault? = some e ↔
      ∃ earlier place later, c.places = earlier ++ place :: later ∧
        (∀ q ∈ earlier, c.fault? q = none) ∧ c.fault? place = some e := by
  rw [List.findSome?_eq_some_iff]
  constructor
  · rintro ⟨earlier, place, later, hplaces, hfault, hnone⟩
    exact ⟨earlier, place, later, hplaces, hnone, hfault⟩
  · rintro ⟨earlier, place, later, hplaces, hnone, hfault⟩
    exact ⟨earlier, place, later, hplaces, hfault, hnone⟩

/-- **Analysis implements the rule for names.** A program is accepted exactly when it is well scoped.
Then its objects are the module and, in the order of the text, all declarations, each with its name,
the class around it and the classes that its types stand for, and a class knows exactly the names in
its body. Otherwise the diagnostic is the fault of the first declaration that has one. -/
theorem analyze_scoping (c : Class) :
    ((∃ m, Module.analyze c = .ok m) ↔ c.WellScoped) ∧
    (∀ m, Module.analyze c = .ok m →
      m.size = 1 + c.places.length ∧
      m.get? Module.root = some (.ofClass c.name none ⟨c.entries [] c.body.length⟩) ∧
      ∀ n place, c.places[n]? = some place →
        c.number place = n + 1 ∧
        ∃ d o, c.declaration? place = some d ∧ m.get? (n + 1) = some o ∧
          c.Records place (c.bodyAt place).length d o) ∧
    (∀ e, Module.analyze c = .error e ↔
      ∃ earlier place later, c.places = earlier ++ place :: later ∧
        (∀ q ∈ earlier, c.fault? q = none) ∧ c.fault? place = some e) := by
  have h := c.analyze_eq
  have hwell : c.WellScoped ↔ c.places.findSome? c.fault? = none := by
    rw [wellScoped_iff, List.findSome?_eq_none_iff]
  simp only [← findSome?_fault?_eq_some_iff]
  -- Either some declaration has a fault, or the analysis goes on to the end.
  cases hf : c.places.findSome? c.fault? with
  | some e =>
      rw [hf] at h
      refine ⟨?_, ?_, ?_⟩
      · rw [hwell, hf, h]
        simp
      · intro m hm
        rw [h] at hm
        cases hm
      · intro e'
        rw [h, Except.error.injEq, Option.some.injEq]
  | none =>
      rw [hf] at h
      obtain ⟨m, hm, ha⟩ := h
      refine ⟨?_, ?_, ?_⟩
      · rw [hwell, hf, hm]
        simp
      · intro m' hm'
        obtain rfl : m = m' := Except.ok.inj (hm.symm.trans hm')
        refine ⟨ha.size_eq.trans c.number_end, ha.get?_root, fun n place hplace => ?_⟩
        exact ⟨number_getElem?_places hplace, ha.get?_succ hplace⟩
      · intro e
        simp [hm]

end Class

end Bucket
