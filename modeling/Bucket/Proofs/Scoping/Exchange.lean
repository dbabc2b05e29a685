/-
# Exchanging neighbours

Two declarations that follow each other in a body may change places when they have different names and
neither of them has a type by the name of the other one. The same names then lead to the same declarations
in their other places (`Class.Exchanged.resolve_crossed`). The main result is that a program is accepted in
one order exactly when it is accepted in the other, and that its objects are the same then up to their
numbers (`Class.analyze_exchange`).
-/
import Bucket.Proofs.Scoping.Analysis
import Bucket.Proofs.Scoping.Blocks
import Bucket.Proofs.Scoping.Crossing
import Bucket.Proofs.Scoping.Renumbering

namespace Bucket

/-! ## Names of types -/

mutual

/-- The names of all types inside a declaration, at any depth. -/
def Declaration.typeNames : Declaration → List String
  | .classDef _ body _ => bodyTypeNames body
  | .method m => (Declaration.method m).types.filterMap (·.name?)
  | .field f => (Declaration.field f).types.filterMap (·.name?)

/-- The names of all types inside a body. -/
def bodyTypeNames : List Declaration → List String
  | [] => []
  | d :: rest => d.typeNames ++ bodyTypeNames rest

end

/-- The types of a declaration itself are inside it. -/
theorem Declaration.mem_typeNames {d : Declaration} {type : Expression} {name : String}
    (htype : type ∈ d.types) (hname : type.name? = some name) : name ∈ d.typeNames := by
  cases d with
  | classDef n body span => cases htype
  | method m => exact List.mem_filterMap.2 ⟨type, htype, hname⟩
  | field f => exact List.mem_filterMap.2 ⟨type, htype, hname⟩

/-- Types inside a declaration are inside a body with that declaration. -/
theorem typeNames_subset_body {d : Declaration} {ds : List Declaration} (hd : d ∈ ds) :
    d.typeNames ⊆ bodyTypeNames ds := by
  induction ds with
  | nil => cases hd
  | cons e rest ih =>
      rcases List.mem_cons.1 hd with rfl | hd
      · exact List.subset_append_left _ _
      · exact List.subset_append_of_subset_right _ (ih hd)

/-- Types of what lies inside a declaration are inside that declaration. -/
theorem Class.typeNames_subset {c : Class} {x p : Place} {d e : Declaration}
    (hx : c.declaration? x = some e) (hp : c.declaration? p = some d) (h : x <:+ p) :
    d.typeNames ⊆ e.typeNames := by
  induction p generalizing d with
  | nil =>
      obtain rfl := List.suffix_nil.1 h
      obtain rfl : e = d := Option.some.inj (hx.symm.trans hp)
      exact List.Subset.refl _
  | cons j p ih =>
      rcases List.suffix_cons_iff.1 h with rfl | h
      · obtain rfl : e = d := Option.some.inj (hx.symm.trans hp)
        exact List.Subset.refl _
      · obtain ⟨e', he', hclass, hbody⟩ := isClass_of_declaration?_cons hp
        refine List.Subset.trans ?_ (ih he' h)
        rw [declaration?_cons, hbody] at hp
        cases e' with
        | classDef n body span => exact typeNames_subset_body (List.mem_of_getElem? hp)
        | method m => cases hclass
        | field f => cases hclass

/-! ## Objects in another order -/

namespace Object

/-- Whether two objects are the same but that a class may show its names in another order. No name is
shown twice. -/
inductive Reordered : Object → Object → Prop where
  | ofClass {name : String} {parent : Option ObjectId} {bindings bindings' : List (String × ObjectId)} :
      bindings.Perm bindings' → (bindings.map Prod.fst).Nodup →
      Reordered (ofClass name parent ⟨bindings⟩) (ofClass name parent ⟨bindings'⟩)
  | ofMethod {name : String} {parent : ObjectId} {arguments : List (String × ObjectId)}
      {returns : Option ObjectId} :
      Reordered (ofMethod name parent arguments returns) (ofMethod name parent arguments returns)
  | ofField {name : String} {parent type : ObjectId} :
      Reordered (ofField name parent type) (ofField name parent type)

/-- Names that are all different stand for the same objects in every order. -/
theorem lookup_eq_of_perm {bindings bindings' : List (String × ObjectId)}
    (h : bindings.Perm bindings') (hnodup : (bindings.map Prod.fst).Nodup) (name : String) :
    bindings.lookup name = bindings'.lookup name := by
  induction h with
  | nil => rfl
  | cons b _ ih => rw [List.lookup_cons, List.lookup_cons, ih (List.nodup_cons.1 hnodup).2]
  | swap b b' rest =>
      have hne : b'.1 ≠ b.1 := by
        intro heq
        exact (List.nodup_cons.1 hnodup).1 (heq ▸ List.mem_cons_self)
      rw [List.lookup_cons, List.lookup_cons, List.lookup_cons, List.lookup_cons]
      by_cases hb : name = b.1
      · rw [hb, beq_eq_false_iff_ne.2 hne.symm]
      · rw [beq_eq_false_iff_ne.2 hb]
  | trans h _ ih ih' => exact (ih hnodup).trans (ih' ((h.map Prod.fst).nodup_iff.1 hnodup))

/-- In another order a name stands for the same object. -/
theorem Reordered.member?_eq {o o' : Object} (h : o.Reordered o') (name : String) :
    o.member? name = o'.member? name := by
  cases h with
  | ofClass hperm hnodup => exact lookup_eq_of_perm hperm hnodup name
  | ofMethod => rfl
  | ofField => rfl

end Object

/-- Whether a module is another one with its objects in other places. Its classes may show their names in
another order. -/
structure Module.Renumbered (ρ : ObjectId → ObjectId) (m m' : Module) : Prop where
  bijective : Function.Bijective ρ
  size_eq : m'.size = m.size
  exists_get? : ∀ id o, m.get? id = some o →
    ∃ o', m'.get? (ρ id) = some o' ∧ (o.renumber ρ).Reordered o'

namespace Class

/-! ## The end of an analysis -/

section

variable {c : Class} {m : Module} {p : Place} {d : Declaration} {id : ObjectId} {o : Object}

theorem number_lt_end (hp : c.declaration? p = some d) : c.number p < c.number [c.body.length] := by
  have hle := number_add_count_le (x := []) rfl hp List.nil_suffix
  rw [d.count_eq, number, Nat.zero_add] at hle
  rw [number_end_eq_count]
  omega

/-- At the end every object is that of a declaration. -/
theorem Arena.exists_place (ha : c.Arena [c.body.length] m) (ho : m.get? id = some o) :
    ∃ p d, c.declaration? p = some d ∧ c.number p = id := by
  have hlt := Module.lt_size_of_get? ho
  rw [ha.size_eq, number_end, Nat.add_comm] at hlt
  cases id with
  | zero => exact ⟨[], _, rfl, rfl⟩
  | succ n =>
      have hn : n < c.places.length := Nat.lt_of_succ_lt_succ hlt
      have hplace := List.getElem?_eq_getElem hn
      obtain ⟨d, hd⟩ := declaration?_of_mem_places (List.mem_of_getElem? hplace)
      exact ⟨_, d, hd, number_getElem?_places hplace⟩

end

/-! ## Exchanged neighbours -/

/-- Whether two trees are the same but that two declarations which follow each other in the body at a place
are in another order. They have different names, and neither has a type by the name of the other one. -/
structure Exchanged (c c' : Class) (outer : Place) (front : List Declaration) (s₁ s₂ : Declaration)
    (back : List Declaration) : Prop where
  body_eq : c.bodyAt outer = front ++ s₁ :: s₂ :: back
  body_eq' : c'.bodyAt outer = front ++ s₂ :: s₁ :: back
  /-- Outside the body only bodies differ. -/
  label_eq : ∀ p, (∀ j, ¬ (j :: outer) <:+ p) →
    (c'.declaration? p).map Declaration.label = (c.declaration? p).map Declaration.label
  name_ne : s₁.name ≠ s₂.name
  first_free : s₂.name ∉ s₁.typeNames
  second_free : s₁.name ∉ s₂.typeNames

namespace Exchanged

variable {c c' : Class} {outer p q : Place} {front back : List Declaration} {s₁ s₂ d d' : Declaration}

theorem symm (h : Exchanged c c' outer front s₁ s₂ back) :
    Exchanged c' c outer front s₂ s₁ back where
  body_eq := h.body_eq'
  body_eq' := h.body_eq
  label_eq p hp := (h.label_eq p hp).symm
  name_ne := h.name_ne.symm
  first_free := h.second_free
  second_free := h.first_free

/-- Every declaration is found at its other place, with its label. -/
theorem label_crossed (h : Exchanged c c' outer front s₁ s₂ back) (p : Place) :
    (c'.declaration? (crossed front.length outer p)).map Declaration.label =
      (c.declaration? p).map Declaration.label := by
  by_cases hp : ∃ j, (j :: outer) <:+ p
  · obtain ⟨j, r, rfl⟩ := hp
    rw [crossed_append]
    refine congrArg _ (declaration?_below ?_ r)
    rw [declaration?_cons, declaration?_cons, h.body_eq, h.body_eq', getElem?_swapAt]
  · have hp : ∀ j, ¬ (j :: outer) <:+ p := fun j hj => hp ⟨j, hj⟩
    rw [crossed_eq_self hp, h.label_eq p hp]

/-- A declaration of one tree is there in the other one, perhaps with another body. -/
theorem exists_declaration? (h : Exchanged c c' outer front s₁ s₂ back)
    (hp : c.declaration? p = some d) :
    ∃ d', c'.declaration? (crossed front.length outer p) = some d' ∧ d'.Alike d := by
  have hlabel := h.label_crossed p
  rw [hp, Option.map_some, Option.map_eq_some_iff] at hlabel
  obtain ⟨d', hd', hlabel⟩ := hlabel
  exact ⟨d', hd', Declaration.alike_of_label_eq hlabel⟩

/-- All other bodies have the same labels in the same order. -/
theorem map_label_bodyAt (h : Exchanged c c' outer front s₁ s₂ back) (hq : q ≠ outer) :
    (c'.bodyAt (crossed front.length outer q)).map Declaration.label =
      (c.bodyAt q).map Declaration.label := by
  refine List.ext_getElem? fun j => ?_
  have hlabel := h.label_crossed (j :: q)
  rwa [crossed_cons_of_ne hq, declaration?_cons, declaration?_cons, ← List.getElem?_map,
    ← List.getElem?_map] at hlabel

/-- All other bodies have the same names in the same order. -/
theorem map_name_bodyAt (h : Exchanged c c' outer front s₁ s₂ back) (hq : q ≠ outer) :
    (c'.bodyAt (crossed front.length outer q)).map Declaration.name =
      (c.bodyAt q).map Declaration.name := by
  have hnames := congrArg (List.map fun label => label.1.name) (h.map_label_bodyAt hq)
  simpa only [List.map_map, Function.comp_def, Declaration.name_label] using hnames

/-- All other bodies hold as many declarations in front of each of theirs. -/
theorem countDeclarations_take_bodyAt (h : Exchanged c c' outer front s₁ s₂ back) (hq : q ≠ outer)
    (j : Nat) :
    countDeclarations ((c'.bodyAt (crossed front.length outer q)).take j) =
      countDeclarations ((c.bodyAt q).take j) := by
  have hcounts := congrArg (fun labels => (labels.take j).map Prod.snd) (h.map_label_bodyAt hq)
  simp only [← List.map_take, List.map_map, Function.comp_def, Declaration.label] at hcounts
  exact countDeclarations_of_map_count hcounts

/-- Every body has the same names. -/
theorem names_perm (h : Exchanged c c' outer front s₁ s₂ back) (q : Place) :
    ((c'.bodyAt (crossed front.length outer q)).map Declaration.name).Perm
      ((c.bodyAt q).map Declaration.name) := by
  by_cases hq : q = outer
  · rw [hq, crossed_outer, h.body_eq, h.body_eq']
    exact ((List.Perm.swap s₁ s₂ back).append_left front).map _
  · rw [h.map_name_bodyAt hq]

/-! ### Names -/

/-- A name leads to the same declaration in its other place, unless it is that of the second neighbour and
looked for inside the first one, or the other way round. -/
theorem resolve_crossed (h : Exchanged c c' outer front s₁ s₂ back) {name : String}
    (h₁ : (front.length :: outer) <:+ p → name ≠ s₂.name)
    (h₂ : ((front.length + 1) :: outer) <:+ p → name ≠ s₁.name) :
    c'.resolve name (crossed front.length outer p) =
      (c.resolve name p).map (crossed front.length outer) := by
  induction p with
  | nil => rfl
  | cons j q ih =>
      have ih := ih (fun hs => h₁ (hs.trans (List.suffix_cons j q)))
        fun hs => h₂ (hs.trans (List.suffix_cons j q))
      by_cases hq : q = outer
      · subst hq
        -- Not both neighbours have the name.
        have hname : (s₁.name == name) = false ∨ (s₂.name == name) = false := by
          by_cases h₁ : s₁.name = name
          · exact .inr (beq_eq_false_iff_ne.2 (h₁ ▸ h.name_ne.symm))
          · exact .inl (beq_eq_false_iff_ne.2 h₁)
        have hfind := findIdx?_take_swapAt front back s₁ s₂ (·.name == name) hname
          (fun hj => beq_eq_false_iff_ne.2 (h₁ (hj ▸ List.suffix_refl _)).symm)
          (fun hj => beq_eq_false_iff_ne.2 (h₂ (hj ▸ List.suffix_refl _)).symm)
        rw [crossed_outer] at ih
        rw [crossed_inside, resolve, resolve, before, before, h.body_eq, h.body_eq', hfind, ih]
        cases ((front ++ s₁ :: s₂ :: back).take j).findIdx? (·.name == name) with
        | none => rfl
        | some k => exact congrArg some (crossed_inside ..).symm
      · have hfind : ((c'.bodyAt (crossed front.length outer q)).take j).findIdx? (·.name == name) =
            ((c.bodyAt q).take j).findIdx? (·.name == name) := by
          have hnames := congrArg (fun names => (names.take j).findIdx? (· == name))
            (h.map_name_bodyAt hq)
          simpa only [← List.map_take, List.findIdx?_map, Function.comp_def] using hnames
        rw [crossed_cons_of_ne hq, resolve, resolve, before, before, hfind, ih]
        cases ((c.bodyAt q).take j).findIdx? (·.name == name) with
        | none => rfl
        | some k => exact congrArg some (crossed_cons_of_ne hq).symm

theorem declaration?_first (h : Exchanged c c' outer front s₁ s₂ back) :
    c.declaration? (front.length :: outer) = some s₁ := by
  rw [declaration?_cons, h.body_eq]
  simp

theorem declaration?_second (h : Exchanged c c' outer front s₁ s₂ back) :
    c.declaration? ((front.length + 1) :: outer) = some s₂ := by
  rw [declaration?_cons, h.body_eq]
  simp

/-- A type stands for the same class in its other place. -/
theorem means_crossed (h : Exchanged c c' outer front s₁ s₂ back) (hp : c.declaration? p = some d)
    {type : Expression} (htype : type ∈ d.types) (hm : c.Means p type q) :
    c'.Means (crossed front.length outer p) type (crossed front.length outer q) := by
  obtain ⟨name, hname, hresolve, hclass⟩ := hm
  have hmem : name ∈ d.typeNames := Declaration.mem_typeNames htype hname
  have hfree₁ : (front.length :: outer) <:+ p → name ≠ s₂.name := by
    rintro hs rfl
    exact h.first_free (typeNames_subset h.declaration?_first hp hs hmem)
  have hfree₂ : ((front.length + 1) :: outer) <:+ p → name ≠ s₁.name := by
    rintro hs rfl
    exact h.second_free (typeNames_subset h.declaration?_second hp hs hmem)
  refine ⟨name, hname, by rw [h.resolve_crossed hfree₁ hfree₂, hresolve]; rfl, ?_⟩
  obtain ⟨⟨e, he⟩, -⟩ := number_resolve_lt hresolve
  obtain ⟨e', he', halike⟩ := h.exists_declaration? he
  rw [he, Option.any_some] at hclass
  rw [he', Option.any_some, halike.isClass_eq, hclass]

/-- If one of the trees obeys the rule for names, so does the other one. -/
theorem wellScoped (h : Exchanged c c' outer front s₁ s₂ back) (hc : c.WellScoped) :
    c'.WellScoped where
  names_nodup place := by
    have hperm := h.names_perm (crossed front.length outer place)
    rw [crossed_crossed] at hperm
    exact hperm.nodup_iff.2 (hc.names_nodup _)
  types_mean place d' hd' type htype := by
    obtain ⟨d, hd, halike⟩ := h.symm.exists_declaration? hd'
    have htype : type ∈ d.types := halike.types_eq ▸ htype
    obtain ⟨target, hmeans⟩ := hc.types_mean _ d hd type htype
    have hmeans' := h.means_crossed hd htype hmeans
    rw [crossed_crossed] at hmeans'
    exact ⟨_, hmeans'⟩

/-! ### Numbers -/

/-- The first neighbour follows what is in front of it in the body. -/
theorem number_first (h : Exchanged c c' outer front s₁ s₂ back) :
    c.number (front.length :: outer) = c.number outer + 1 + countDeclarations front := by
  rw [number, h.body_eq, List.take_left]

/-- Every declaration has the exchanged number in its other place. -/
theorem number_crossed (h : Exchanged c c' outer front s₁ s₂ back) (hp : c.declaration? p = some d) :
    c'.number (crossed front.length outer p) =
      Module.exchange (c.number (front.length :: outer)) s₁.count s₂.count (c.number p) := by
  induction p generalizing d with
  | nil =>
      have hpos : 0 < c.number (front.length :: outer) := by
        rw [h.number_first]
        omega
      exact (Module.exchange_of_lt hpos).symm
  | cons j q ih =>
      obtain ⟨e, he, -⟩ := isClass_of_declaration?_cons hp
      have ih := ih he
      have hnumber : c.number (j :: q) =
        c.number q + (1 + countDeclarations ((c.bodyAt q).take j)) := Nat.add_assoc ..
      by_cases hq : q = outer
      · subst hq
        rw [Module.exchange_of_lt (c.number_lt_cons _ q), crossed_outer] at ih
        rw [crossed_inside, number, ih, h.body_eq', countDeclarations_take_swapAt,
          ← Module.exchange_add, ← h.number_first, hnumber, h.body_eq, Nat.add_assoc]
      · -- The class around and the declaration are inside the same blocks.
        have hblock : ∀ i, (i :: outer) <:+ (j :: q) ↔ (i :: outer) <:+ q := by
          intro i
          rw [List.suffix_cons_iff]
          exact or_iff_right fun heq => hq (List.cons.inj heq).2.symm
        have hfirst := hblock front.length
        have hsecond := hblock (front.length + 1)
        rw [suffix_iff h.declaration?_first hp, suffix_iff h.declaration?_first he, hnumber] at hfirst
        rw [suffix_iff h.declaration?_second hp, suffix_iff h.declaration?_second he, hnumber,
          number_next h.declaration?_first] at hsecond
        rw [crossed_cons_of_ne hq, number, ih, h.countDeclarations_take_bodyAt hq, hnumber,
          Module.exchange_add_right hfirst hsecond, Nat.add_assoc]

/-! ### Objects -/

section

variable {ρ : ObjectId → ObjectId}

/-- Types that a method names stand for the classes with the numbers of the other tree. -/
theorem map_arguments_eq {as : List Argument} {found found' : List (String × ObjectId)}
    (h : List.Forall₂ (fun a (b : String × ObjectId) => b.1 = a.name ∧ c.Denotes p a.type b.2) as found)
    (h' : List.Forall₂ (fun a (b : String × ObjectId) => b.1 = a.name ∧ c'.Denotes q a.type b.2) as
      found')
    (hdenotes : ∀ a ∈ as, ∀ i, c.Denotes p a.type i → c'.Denotes q a.type (ρ i)) :
    found.map (Prod.map id ρ) = found' := by
  induction h generalizing found' with
  | nil =>
      cases h'
      rfl
  | @cons a b as found hab _ ih =>
      cases h' with
      | @cons _ b' _ found' hab' hrest =>
          have hb : Prod.map id ρ b = b' :=
            Prod.ext (hab.1.trans hab'.1.symm)
              ((hdenotes a List.mem_cons_self _ hab.2).unique hab'.2)
          rw [List.map_cons, hb, ih hrest fun a ha => hdenotes a (List.mem_cons_of_mem _ ha)]

/-- A result stands for the class with the number of the other tree. -/
theorem map_returns_eq {type : Option Expression} {found found' : Option ObjectId}
    (h : Option.Rel (c.Denotes p) type found) (h' : Option.Rel (c'.Denotes q) type found')
    (hdenotes : ∀ t ∈ type, ∀ i, c.Denotes p t i → c'.Denotes q t (ρ i)) :
    found.map ρ = found' := by
  cases h with
  | none =>
      cases h'
      rfl
  | some hi =>
      cases h' with
      | some hi' => exact congrArg some ((hdenotes _ rfl _ hi).unique hi')

variable (h : Exchanged c c' outer front s₁ s₂ back)
  (hρ : ∀ p d, c.declaration? p = some d →
    c'.number (crossed front.length outer p) = ρ (c.number p))

include hρ in
theorem enclosing?_crossed (hp : c.declaration? p = some d) :
    c'.enclosing? (crossed front.length outer p) = (c.enclosing? p).map ρ := by
  cases p with
  | nil => rfl
  | cons j q =>
      obtain ⟨e, he, -⟩ := isClass_of_declaration?_cons hp
      exact congrArg some (hρ q e he)

include h hρ

/-- A type stands for the class with the number of the other tree. -/
theorem denotes_crossed (hp : c.declaration? p = some d) {type : Expression} (htype : type ∈ d.types)
    {id : ObjectId} (hid : c.Denotes p type id) :
    c'.Denotes (crossed front.length outer p) type (ρ id) := by
  obtain ⟨target, hmeans, rfl⟩ := hid
  have ⟨_, _, hresolve, _⟩ := hmeans
  obtain ⟨⟨e, he⟩, -⟩ := number_resolve_lt hresolve
  exact ⟨_, h.means_crossed hp htype hmeans, hρ target e he⟩

/-- A class shows the same names in both trees. -/
theorem entries_perm (hc : c.WellScoped) (p : Place) :
    ((c.entries p (c.bodyAt p).length).map (Prod.map id ρ)).Perm
      (c'.entries (crossed front.length outer p) (c'.bodyAt (crossed front.length outer p)).length) := by
  have hnodup : (((c.entries p (c.bodyAt p).length).map (Prod.map id ρ)).map Prod.fst).Nodup := by
    rw [List.map_map, show Prod.fst ∘ Prod.map id ρ = Prod.fst from rfl, map_fst_entries]
    exact hc.names_nodup p
  have hnodup' : ((c'.entries (crossed front.length outer p)
      (c'.bodyAt (crossed front.length outer p)).length).map Prod.fst).Nodup := by
    rw [map_fst_entries]
    exact (h.wellScoped hc).names_nodup _
  refine (List.perm_ext_iff_of_nodup hnodup.of_map hnodup'.of_map).2 fun ⟨name, id⟩ => ?_
  rw [List.mem_map, mem_entries_length]
  constructor
  · rintro ⟨⟨_, _⟩, hmem, heq⟩
    obtain ⟨j, d, hd, rfl, rfl⟩ := mem_entries_length.1 hmem
    obtain ⟨rfl, rfl⟩ := Prod.mk.inj heq
    obtain ⟨d', hd', halike⟩ := h.exists_declaration? hd
    exact ⟨_, d', hd', halike.name_eq, hρ _ d hd⟩
  · rintro ⟨j, d', hd', rfl, rfl⟩
    -- The same name stands at the index that this one has in the first tree.
    obtain ⟨d, hd, halike⟩ := h.symm.exists_declaration? hd'
    have hnumber := hρ _ d hd
    rw [crossed_crossed] at hnumber
    rw [crossed, crossed_crossed] at hd hnumber
    exact ⟨_, mem_entries_length.2 ⟨_, d, hd, rfl, rfl⟩,
      Prod.ext halike.name_eq hnumber.symm⟩

/-- What is recorded of a declaration in the other tree is the same object in its other place. -/
theorem reordered_of_records (hc : c.WellScoped) (hp : c.declaration? p = some d) {o o' : Object}
    (halike : d'.Alike d) (ho : c.Records p (c.bodyAt p).length d o)
    (ho' : c'.Records (crossed front.length outer p) (c'.bodyAt (crossed front.length outer p)).length
      d' o') :
    (o.renumber ρ).Reordered o' := by
  have hparent := enclosing?_crossed hρ hp
  cases d with
  | classDef name body span =>
      cases d' with
      | classDef name' body' span' =>
          obtain rfl : o = _ := ho
          obtain rfl : o' = _ := ho'
          obtain rfl : name' = name := halike.name_eq
          have hperm := entries_perm h hρ hc p
          rw [hparent]
          refine .ofClass hperm (((hperm.map Prod.fst).nodup_iff).2 ?_)
          rw [map_fst_entries]
          exact (h.wellScoped hc).names_nodup _
      | method m => cases halike.isClass_eq
      | field f => cases halike.isClass_eq
  | method m =>
      obtain rfl := halike.eq_of_not_isClass halike.isClass_eq
      obtain ⟨parent, arguments, returns, hparent₁, rfl, harguments, hreturns⟩ := ho
      obtain ⟨parent', arguments', returns', hparent₂, rfl, harguments', hreturns'⟩ := ho'
      rw [hparent₁, hparent₂] at hparent
      obtain rfl : parent' = ρ parent := Option.some.inj hparent
      obtain rfl : arguments.map (Prod.map id ρ) = arguments' :=
        map_arguments_eq harguments harguments' fun a ha i =>
          denotes_crossed h hρ hp (List.mem_append_left _ (List.mem_map_of_mem ha))
      obtain rfl : returns.map ρ = returns' :=
        map_returns_eq hreturns hreturns' fun type htype i =>
          denotes_crossed h hρ hp (List.mem_append_right _ (Option.mem_toList.2 htype))
      exact .ofMethod
  | field f =>
      obtain rfl := halike.eq_of_not_isClass halike.isClass_eq
      obtain ⟨parent, type, hparent₁, rfl, htype⟩ := ho
      obtain ⟨parent', type', hparent₂, rfl, htype'⟩ := ho'
      rw [hparent₁, hparent₂] at hparent
      obtain rfl : parent' = ρ parent := Option.some.inj hparent
      obtain rfl : ρ type = type' :=
        (denotes_crossed h hρ hp List.mem_cons_self htype).unique htype'
      exact .ofField

end

/-! ### Modules -/

/-- The objects of both trees are the same in other places. -/
theorem renumbered (h : Exchanged c c' outer front s₁ s₂ back) (hc : c.WellScoped) {m m' : Module}
    (hm : c.Arena [c.body.length] m) (hm' : c'.Arena [c'.body.length] m') :
    Module.Renumbered (Module.exchange (c.number (front.length :: outer)) s₁.count s₂.count) m m' where
  bijective := Module.exchange_bijective ..
  size_eq := by
    obtain ⟨d', hd', halike⟩ := h.exists_declaration? (p := []) rfl
    obtain rfl : c'.toDeclaration = d' := Option.some.inj hd'
    rw [hm.size_eq, hm'.size_eq, number_end_eq_count, number_end_eq_count]
    exact halike.count_eq
  exists_get? id o ho := by
    obtain ⟨p, d, hp, rfl⟩ := hm.exists_place ho
    obtain ⟨d', hp', halike⟩ := h.exists_declaration? hp
    obtain ⟨o₁, ho₁, hrec⟩ := hm.records p d hp (number_lt_end hp)
    obtain ⟨o', ho', hrec'⟩ := hm'.records _ d' hp' (number_lt_end hp')
    obtain rfl : o₁ = o := Option.some.inj (ho₁.symm.trans ho)
    rw [progress_end] at hrec hrec'
    rw [← h.number_crossed hp]
    exact ⟨o', ho', reordered_of_records h (fun q e hq => h.number_crossed hq) hc hp halike hrec hrec'⟩

end Exchanged

/-! ## Exchanging in a tree -/

/-- A tree in which two neighbours have changed places. -/
theorem exchanged_withBody {c : Class} {outer : Place} {front back : List Declaration}
    {s₁ s₂ : Declaration} (hbody : c.bodyAt outer = front ++ s₁ :: s₂ :: back)
    (hname : s₁.name ≠ s₂.name) (hfirst : s₂.name ∉ s₁.typeNames) (hsecond : s₁.name ∉ s₂.typeNames) :
    Exchanged c (c.withBody outer (front ++ s₂ :: s₁ :: back)) outer front s₁ s₂ back where
  body_eq := hbody
  body_eq' := bodyAt_withBody (by rw [hbody]; simp)
  label_eq p hp := label_withBody (by rw [hbody, countDeclarations_exchange]) hp
  name_ne := hname
  first_free := hfirst
  second_free := hsecond

/-- **Independent neighbours may change places.** Take two declarations of different names that follow each
other in a body, at any depth, where neither has a type inside by the name of the other one. A program is
accepted exactly when it is accepted with them in the other order. Its objects are then the same, but for
the blocks of the two declarations, which have changed places. -/
theorem analyze_exchange (c : Class) (outer : Place) (front back : List Declaration)
    (s₁ s₂ : Declaration) (hbody : c.bodyAt outer = front ++ s₁ :: s₂ :: back)
    (hname : s₁.name ≠ s₂.name) (hfirst : s₂.name ∉ s₁.typeNames) (hsecond : s₁.name ∉ s₂.typeNames) :
    let c' := c.withBody outer (front ++ s₂ :: s₁ :: back)
    ((∃ m, Module.analyze c = .ok m) ↔ ∃ m', Module.analyze c' = .ok m') ∧
    ∀ m m', Module.analyze c = .ok m → Module.analyze c' = .ok m' →
      Module.Renumbered (Module.exchange (c.number (front.length :: outer)) s₁.count s₂.count)
        m m' := by
  intro c'
  have h : Exchanged c c' outer front s₁ s₂ back := exchanged_withBody hbody hname hfirst hsecond
  rw [exists_analyze_iff, exists_analyze_iff]
  refine ⟨⟨h.wellScoped, h.symm.wellScoped⟩, fun m m' hm hm' => ?_⟩
  have hc : c.WellScoped := exists_analyze_iff.1 ⟨m, hm⟩
  exact h.renumbered hc (arena_of_analyze hm) (arena_of_analyze hm')

/-- Two classes inside another one, of which the first one has a class with the name of the second one
inside. What is declared outside them, or behind them, keeps its place. -/
theorem analyze_exchange_inner :
    let first : Declaration := .classDef "First" [.classDef "Second" [] default,
      .field ⟨"x", .identifier "A" default, default⟩] default
    let second : Declaration := .classDef "Second" [.field ⟨"First", .identifier "A" default, default⟩]
      default
    let last : Declaration := .field ⟨"y", .identifier "Second" default, default⟩
    let c : Class :=
      ⟨"module", [.classDef "A" [] default, .classDef "Outer" [first, second, last] default], default⟩
    let c' : Class :=
      ⟨"module", [.classDef "A" [] default, .classDef "Outer" [second, first, last] default], default⟩
    let m : Module := ⟨#[.ofClass "module" none ⟨[("A", 1), ("Outer", 2)]⟩,
      .ofClass "A" (some 0) ⟨[]⟩,
      .ofClass "Outer" (some 0) ⟨[("First", 3), ("Second", 6), ("y", 8)]⟩,
      .ofClass "First" (some 2) ⟨[("Second", 4), ("x", 5)]⟩, .ofClass "Second" (some 3) ⟨[]⟩,
      .ofField "x" 3 1,
      .ofClass "Second" (some 2) ⟨[("First", 7)]⟩, .ofField "First" 6 1,
      .ofField "y" 2 6]⟩
    let m' : Module := ⟨#[.ofClass "module" none ⟨[("A", 1), ("Outer", 2)]⟩,
      .ofClass "A" (some 0) ⟨[]⟩,
      .ofClass "Outer" (some 0) ⟨[("Second", 3), ("First", 5), ("y", 8)]⟩,
      .ofClass "Second" (some 2) ⟨[("First", 4)]⟩, .ofField "First" 3 1,
      .ofClass "First" (some 2) ⟨[("Second", 6), ("x", 7)]⟩, .ofClass "Second" (some 5) ⟨[]⟩,
      .ofField "x" 5 1,
      .ofField "y" 2 3]⟩
    (first.name ≠ second.name ∧ second.name ∉ first.typeNames ∧ first.name ∉ second.typeNames) ∧
    Module.analyze c = .ok m ∧ Module.analyze c' = .ok m' ∧
      Module.Renumbered (Module.exchange 3 3 2) m m' := by
  intro first second last c c' m m'
  have hnames : first.name ≠ second.name ∧ second.name ∉ first.typeNames ∧
      first.name ∉ second.typeNames := by
    decide +kernel
  have ⟨hname, hfirst, hsecond⟩ := hnames
  have h := analyze_exchange c [1] [] [last] first second rfl hname hfirst hsecond
  have hm : Module.analyze c = .ok m := by decide +kernel
  have hm' : Module.analyze c' = .ok m' := by decide +kernel
  exact ⟨hnames, hm, hm', h.2 m m' hm hm'⟩

end Class

end Bucket
