/-
# Blocks of declarations

What a declaration holds takes up one stretch of the numbers in a tree (`Class.suffix_iff`). The body of a
class in the tree may be replaced by another one that holds as many declarations. What stands outside that
class stays what it is, and so do the numbers it takes up (`Class.label_withBody`).
-/
import Bucket.Proofs.Scoping.Arena

namespace Bucket

/-! ## Inside a declaration -/

mutual

/-- What is listed inside a declaration has a place inside that of the declaration. -/
theorem Declaration.suffix_of_mem_placesIn {place q : Place} :
    (d : Declaration) → q ∈ d.placesIn place → place <:+ q
  | .classDef name body span, hq => suffix_of_mem_placesFrom body hq
  | .method m, hq => by simp [Declaration.placesIn] at hq
  | .field f, hq => by simp [Declaration.placesIn] at hq

theorem suffix_of_mem_placesFrom {outer q : Place} {i : Nat} :
    (ds : List Declaration) → q ∈ placesFrom outer i ds → outer <:+ q
  | [], hq => by simp [placesFrom] at hq
  | d :: rest, hq => by
      rw [placesFrom, List.mem_cons, List.mem_append] at hq
      rcases hq with rfl | hq | hq
      · exact List.suffix_cons i outer
      · exact (List.suffix_cons i outer).trans (d.suffix_of_mem_placesIn hq)
      · exact suffix_of_mem_placesFrom rest hq

end

namespace Class

variable {c : Class} {x p : Place} {d e : Declaration}

/-- What lies inside a declaration ends where that does, or before. -/
theorem number_add_count_le (hx : c.declaration? x = some e) (hp : c.declaration? p = some d)
    (h : x <:+ p) : c.number p + d.count ≤ c.number x + e.count := by
  induction p generalizing d with
  | nil =>
      obtain rfl := List.suffix_nil.1 h
      obtain rfl : e = d := Option.some.inj (hx.symm.trans hp)
      exact Nat.le_refl _
  | cons j p ih =>
      rcases List.suffix_cons_iff.1 h with rfl | h
      · obtain rfl : e = d := Option.some.inj (hx.symm.trans hp)
        exact Nat.le_refl _
      · obtain ⟨e', he', -, hbody⟩ := isClass_of_declaration?_cons hp
        have hj : j + 1 ≤ e'.body.length := by
          rw [declaration?_cons, hbody] at hp
          exact (List.getElem?_eq_some_iff.1 hp).1
        have hend : c.number (e'.body.length :: p) + 1 = c.number p + 1 + e'.count := by
          rw [number, bodyAt_of_declaration? he', List.take_length, e'.count_eq]
          omega
        calc c.number (j :: p) + d.count = c.number ((j + 1) :: p) := (number_next hp).symm
          _ ≤ c.number (e'.body.length :: p) := c.number_le_of_le p hj
          _ = c.number p + e'.count := by omega
          _ ≤ c.number x + e.count := ih he' h

/-- A declaration lies inside another one exactly when its number is one of those that the other one takes
up. -/
theorem suffix_iff (hx : c.declaration? x = some e) (hp : c.declaration? p = some d) :
    x <:+ p ↔ c.number x ≤ c.number p ∧ c.number p < c.number x + e.count := by
  constructor
  · intro h
    have hle := number_add_count_le hx hp h
    rw [d.count_eq] at hle
    exact ⟨c.number_le_of_suffix h, by omega⟩
  · rintro ⟨hfrom, hto⟩
    -- Each number of the block is that of something inside, and belongs to nothing else.
    by_cases heq : c.number p = c.number x
    · obtain rfl := number_inj hp hx heq
      exact List.suffix_refl p
    · have hmem : c.number p ∈ (e.placesIn x).map c.number := by
        rw [e.map_number_placesIn c x hx, List.mem_range'_1]
        rw [e.count_eq] at hto
        omega
      obtain ⟨q, hq, hnumber⟩ := List.mem_map.1 hmem
      obtain ⟨d', hd'⟩ := e.declaration?_of_mem_placesIn hx hq
      obtain rfl := number_inj hd' hp hnumber
      exact e.suffix_of_mem_placesIn hq

/-- Below places with the same declaration there are the same declarations. -/
theorem declaration?_below {c' : Class} {y : Place} (h : c'.declaration? y = c.declaration? x)
    (r : Place) : c'.declaration? (r ++ y) = c.declaration? (r ++ x) := by
  induction r with
  | nil => exact h
  | cons j r ih => rw [List.cons_append, List.cons_append, declaration?, declaration?, ih]

end Class

/-! ## Replacing bodies -/

namespace Declaration

/-- The same declaration with another body. Only a class has one. -/
def withBody (body : List Declaration) : Declaration → Declaration
  | classDef name _ span => classDef name body span
  | d => d

/-- What a declaration is apart from its body, and how many declarations it holds. -/
def label (d : Declaration) : Declaration × Nat := (d.withBody [], d.count)

variable {d e : Declaration} {body : List Declaration}

@[simp] theorem name_label (d : Declaration) : d.label.1.name = d.name := by
  cases d <;> rfl

theorem count_withBody (h : countDeclarations body = countDeclarations d.body) :
    (d.withBody body).count = d.count := by
  cases d with
  | classDef name body' span => simpa [withBody, count, Declaration.body] using h
  | method m => rfl
  | field f => rfl

/-- A body that holds as many declarations leaves the label as it is. -/
theorem label_withBody (h : countDeclarations body = countDeclarations d.body) :
    (d.withBody body).label = d.label := by
  rw [label, label, count_withBody h]
  cases d <;> rfl

theorem body_withBody (hd : d.isClass = true) : (d.withBody body).body = body := by
  cases d with
  | classDef name body' span => rfl
  | method m => cases hd
  | field f => cases hd

/-- A body in which one declaration is changed is that of the declaration with that body. -/
theorem body_withBody_modify (d : Declaration) (i : Nat) (f : Declaration → Declaration) :
    (d.withBody (d.body.modify i f)).body = d.body.modify i f := by
  cases d with
  | classDef name body span => rfl
  | method m => simp [withBody, Declaration.body]
  | field g => simp [withBody, Declaration.body]

/-- Whether two declarations are classes with the same name that hold as much, or the same member. -/
structure Alike (d e : Declaration) : Prop where
  name_eq : d.name = e.name
  count_eq : d.count = e.count
  isClass_eq : d.isClass = e.isClass
  types_eq : d.types = e.types
  eq_of_not_isClass : d.isClass = false → d = e

theorem alike_of_label_eq (h : d.label = e.label) : d.Alike e := by
  obtain ⟨hbody, hcount⟩ := Prod.mk.inj h
  constructor <;> cases d <;> cases e <;> simp_all [withBody, name, isClass, class?, types]

end Declaration

/-- Bodies hold as many declarations when one after the other theirs do. -/
theorem countDeclarations_of_map_count {ds es : List Declaration}
    (h : ds.map Declaration.count = es.map Declaration.count) :
    countDeclarations ds = countDeclarations es := by
  induction ds generalizing es with
  | nil => rw [List.map_eq_nil_iff.1 h.symm]
  | cons d rest ih =>
      obtain ⟨e, es, rfl, hcount, hrest⟩ := List.map_eq_cons_iff.1 h.symm
      rw [countDeclarations, countDeclarations, hcount, ih hrest.symm]

/-- Changing a declaration into one that holds as many leaves the number of declarations as it is. -/
theorem countDeclarations_modify {ds : List Declaration} {i : Nat} {f : Declaration → Declaration}
    (h : ∀ d, ds[i]? = some d → (f d).count = d.count) :
    countDeclarations (ds.modify i f) = countDeclarations ds := by
  induction ds generalizing i with
  | nil => simp
  | cons d rest ih =>
      cases i with
      | zero => simp [countDeclarations, h d rfl]
      | succ i => simp [countDeclarations, ih h]

namespace Class

/-- The tree with another body of the class at a place. -/
def withBody (c : Class) : Place → List Declaration → Class
  | [], body => { c with body := body }
  | i :: outer, body => c.withBody outer ((c.bodyAt outer).modify i (·.withBody body))

variable {c : Class} {q p : Place} {body : List Declaration} {i j : Nat}

/-- What has a body with declarations is a class. -/
theorem exists_class_of_bodyAt (h : c.bodyAt q ≠ []) :
    ∃ e, c.declaration? q = some e ∧ e.isClass = true := by
  obtain ⟨d, rest, hbody⟩ := List.exists_cons_of_ne_nil h
  have hd : c.declaration? (0 :: q) = some d := by rw [declaration?_cons, hbody]; rfl
  obtain ⟨e, he, hclass, -⟩ := isClass_of_declaration?_cons hd
  exact ⟨e, he, hclass⟩

/-- One declaration is changed in the body at a place. -/
theorem bodyAt_of_modify {c' : Class} {f : Declaration → Declaration}
    (h : c'.declaration? q = (c.declaration? q).map (·.withBody ((c.bodyAt q).modify i f))) :
    c'.bodyAt q = (c.bodyAt q).modify i f := by
  rw [bodyAt, h]
  cases he : c.declaration? q with
  | none => simp [bodyAt, he]
  | some e =>
      rw [bodyAt_of_declaration? he, Option.map_some, Option.map_some, Option.getD_some,
        e.body_withBody_modify]

/-- The class at the place is the one that has the other body. -/
theorem declaration?_withBody (c : Class) (q : Place) (body : List Declaration) :
    (c.withBody q body).declaration? q = (c.declaration? q).map (·.withBody body) := by
  induction q generalizing body with
  | nil => rfl
  | cons i q ih =>
      rw [withBody, declaration?_cons, bodyAt_of_modify (ih _), List.getElem?_modify_eq,
        declaration?_cons]
      rfl

/-- A class has the other body. -/
theorem bodyAt_withBody (hq : c.bodyAt q ≠ []) : (c.withBody q body).bodyAt q = body := by
  obtain ⟨e, he, hclass⟩ := exists_class_of_bodyAt hq
  rw [bodyAt, declaration?_withBody, he, Option.map_some, Option.map_some, Option.getD_some,
    Declaration.body_withBody hclass]

/-- What does not lie inside the class with the other body keeps its label. -/
theorem label_withBody (hcount : countDeclarations body = countDeclarations (c.bodyAt q))
    (hp : ∀ j, ¬ (j :: q) <:+ p) :
    ((c.withBody q body).declaration? p).map Declaration.label =
      (c.declaration? p).map Declaration.label := by
  induction q generalizing body with
  | nil =>
      -- All that is not the whole class lies inside it.
      rcases p.eq_nil_or_concat with rfl | ⟨r, j, rfl⟩
      · have hlabel : (c.toDeclaration.withBody body).label = c.toDeclaration.label :=
          Declaration.label_withBody hcount
        exact congrArg some hlabel
      · exact absurd ⟨r, List.concat_eq_append.symm⟩ (hp j)
  | cons i q ih =>
      have hcount' : countDeclarations ((c.bodyAt q).modify i (·.withBody body)) =
          countDeclarations (c.bodyAt q) := by
        refine countDeclarations_modify fun d hd => Declaration.count_withBody ?_
        rw [hcount, bodyAt_of_declaration? ((c.declaration?_cons i q).trans hd)]
      by_cases hbelow : ∃ j, (j :: q) <:+ p
      · obtain ⟨j, r, rfl⟩ := hbelow
        by_cases hij : i = j
        · -- The class itself has another body, which holds as much.
          subst hij
          obtain rfl : r = [] := by
            rcases r.eq_nil_or_concat with rfl | ⟨r, k, rfl⟩
            · rfl
            · exact absurd ⟨r, by simp⟩ (hp k)
          rw [List.nil_append, declaration?_withBody]
          cases hd : c.declaration? (i :: q) with
          | none => rfl
          | some d =>
              rw [bodyAt_of_declaration? hd] at hcount
              exact congrArg some (Declaration.label_withBody hcount)
        · -- Beside it nothing is replaced.
          refine congrArg _ (declaration?_below ?_ r)
          rw [withBody, declaration?_cons, bodyAt_of_modify (declaration?_withBody ..),
            List.getElem?_modify_ne _ _ hij, declaration?_cons]
      · exact ih hcount' fun j hj => hbelow ⟨j, hj⟩

end Class

end Bucket
