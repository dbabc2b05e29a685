/-
# Places in a tree of declarations

A declaration is found in a tree by its place: its index in the body it stands in, then the index of
the class with that body, and so on outward. Places are listed in the order of the text, a class
before what it holds, and numbered in that order. The main facts are that the numbers of the listed
places count up from one (`map_number_places`), that every declaration is listed (`mem_places`) and
that a number belongs to one place only (`number_inj`).
-/
import Bucket.Tree.Basic
import Mathlib.Data.List.Nodup

namespace Bucket

/-! ## Counting declarations -/

/-- The declarations in the body of a declaration. Only a class has some. -/
def Declaration.body : Declaration → List Declaration
  | classDef _ body _ => body
  | _ => []

/-- Whether a declaration is a class. -/
def Declaration.isClass (d : Declaration) : Bool := d.class?.isSome

mutual

/-- How many declarations there are in a declaration, itself included. -/
def Declaration.count : Declaration → Nat
  | .classDef _ body _ => countDeclarations body + 1
  | .method _ => 1
  | .field _ => 1

/-- How many declarations there are in a body. -/
def countDeclarations : List Declaration → Nat
  | [] => 0
  | d :: rest => d.count + countDeclarations rest

end

theorem Declaration.count_eq (d : Declaration) : d.count = countDeclarations d.body + 1 := by
  cases d <;> simp [count, body, countDeclarations]

theorem countDeclarations_append (ds es : List Declaration) :
    countDeclarations (ds ++ es) = countDeclarations ds + countDeclarations es := by
  induction ds with
  | nil => simp [countDeclarations]
  | cons d rest ih => simp only [List.cons_append, countDeclarations, ih]; omega

/-- A longer part of a body holds at least as many declarations. -/
theorem countDeclarations_take_le (ds : List Declaration) {i j : Nat} (h : i ≤ j) :
    countDeclarations (ds.take i) ≤ countDeclarations (ds.take j) := by
  obtain ⟨k, rfl⟩ := Nat.exists_eq_add_of_le h
  rw [List.take_add, countDeclarations_append]
  omega

/-- One declaration more adds all that it holds. -/
theorem countDeclarations_take_succ {ds : List Declaration} {i : Nat} {d : Declaration}
    (h : ds[i]? = some d) :
    countDeclarations (ds.take (i + 1)) = countDeclarations (ds.take i) + d.count := by
  rw [List.take_add_one, h, countDeclarations_append]
  simp [countDeclarations]

/-! ## Places -/

/-- The place of a declaration: its index in its body, then the place of the class with that body.
The empty place is that of the whole class. -/
abbrev Place := List Nat

namespace Class

/-- The declaration at a place. -/
def declaration? (c : Class) : Place → Option Declaration
  | [] => some c.toDeclaration
  | i :: outer => (c.declaration? outer).bind (·.body[i]?)

/-- The body of the class at a place. -/
def bodyAt (c : Class) (place : Place) : List Declaration :=
  ((c.declaration? place).map Declaration.body).getD []

@[simp] theorem bodyAt_nil (c : Class) : c.bodyAt [] = c.body := rfl

theorem bodyAt_of_declaration? {c : Class} {place : Place} {d : Declaration}
    (h : c.declaration? place = some d) : c.bodyAt place = d.body := by
  simp [bodyAt, h]

/-- A declaration stands in the body that its place names. -/
theorem declaration?_cons (c : Class) (i : Nat) (outer : Place) :
    c.declaration? (i :: outer) = (c.bodyAt outer)[i]? := by
  cases h : c.declaration? outer <;> simp [declaration?, bodyAt, h]

/-- The first declaration of the rest of a body, and the rest behind it. -/
theorem declaration?_of_drop {c : Class} {i : Nat} {outer : Place} {d : Declaration}
    {rest : List Declaration} (h : (c.bodyAt outer).drop i = d :: rest) :
    c.declaration? (i :: outer) = some d ∧ (c.bodyAt outer).drop (i + 1) = rest := by
  constructor
  · rw [declaration?_cons, ← List.head?_drop, h]
    rfl
  · rw [← List.tail_drop, h]
    rfl

/-- What encloses a declaration is a class. -/
theorem isClass_of_declaration?_cons {c : Class} {i : Nat} {outer : Place} {d : Declaration}
    (h : c.declaration? (i :: outer) = some d) :
    ∃ e, c.declaration? outer = some e ∧ e.isClass ∧ c.bodyAt outer = e.body := by
  cases he : c.declaration? outer with
  | none => simp [declaration?, he] at h
  | some e =>
      refine ⟨e, rfl, ?_, bodyAt_of_declaration? he⟩
      cases e <;> simp_all [declaration?, Declaration.body, Declaration.isClass, Declaration.class?]

/-! ## Numbers -/

/-- The number of a place: how many declarations begin before the one there, the whole class
included. -/
def number (c : Class) : Place → Nat
  | [] => 0
  | i :: outer => c.number outer + 1 + countDeclarations ((c.bodyAt outer).take i)

/-- A class begins before what it holds. -/
theorem number_lt_cons (c : Class) (i : Nat) (outer : Place) :
    c.number outer < c.number (i :: outer) := by
  rw [number]
  omega

/-- Places in one body are numbered in order. -/
theorem number_le_of_le (c : Class) {i j : Nat} (outer : Place) (h : i ≤ j) :
    c.number (i :: outer) ≤ c.number (j :: outer) := by
  have := countDeclarations_take_le (c.bodyAt outer) h
  simp only [number]
  omega

/-- The first place in a class follows the class itself. -/
theorem number_first (c : Class) (place : Place) : c.number (0 :: place) = c.number place + 1 := by
  simp [number, countDeclarations]

/-- The next place in a body follows all that the declaration before it holds. -/
theorem number_next {c : Class} {i : Nat} {outer : Place} {d : Declaration}
    (h : c.declaration? (i :: outer) = some d) :
    c.number ((i + 1) :: outer) = c.number (i :: outer) + d.count := by
  rw [declaration?_cons] at h
  simp only [number, countDeclarations_take_succ h]
  omega

/-- The place behind the last one in a class has the number of the place behind the class. -/
theorem number_last {c : Class} {i : Nat} {outer : Place} {d : Declaration}
    (h : c.declaration? (i :: outer) = some d) :
    c.number (d.body.length :: i :: outer) = c.number ((i + 1) :: outer) := by
  rw [number_next h, d.count_eq, number, bodyAt_of_declaration? h, List.take_length]
  omega

/-- A declaration has a smaller number than every later one in its body. -/
theorem number_lt_of_lt {c : Class} {i j : Nat} {outer : Place} {d : Declaration}
    (h : c.declaration? (i :: outer) = some d) (hij : i < j) :
    c.number (i :: outer) < c.number (j :: outer) := by
  have hle := c.number_le_of_le outer (Nat.succ_le_of_lt hij)
  rw [Nat.succ_eq_add_one, number_next h, d.count_eq] at hle
  omega

end Class

/-! ## The order of the text -/

mutual

/-- The places of what a declaration at a place holds, each class before its own body. -/
def Declaration.placesIn (place : Place) : Declaration → List Place
  | .classDef _ body _ => placesFrom place 0 body
  | .method _ => []
  | .field _ => []

/-- The places of declarations that follow each other in a body, the first of them at index `i`. -/
def placesFrom (outer : Place) (i : Nat) : List Declaration → List Place
  | [] => []
  | d :: rest => (i :: outer) :: (d.placesIn (i :: outer) ++ placesFrom outer (i + 1) rest)

end

theorem Declaration.placesIn_eq (place : Place) (d : Declaration) :
    d.placesIn place = placesFrom place 0 d.body := by
  cases d <;> simp [placesIn, body, placesFrom]

/-- A declaration of a body is listed, and so is all that it holds. -/
theorem mem_placesFrom {ds : List Declaration} {j : Nat} {d : Declaration} (h : ds[j]? = some d)
    (outer : Place) (i : Nat) :
    ((i + j) :: outer) ∈ placesFrom outer i ds ∧
      d.placesIn ((i + j) :: outer) ⊆ placesFrom outer i ds := by
  induction ds generalizing i j with
  | nil => simp at h
  | cons e rest ih =>
      cases j with
      | zero =>
          simp only [List.getElem?_cons_zero, Option.some.injEq] at h
          subst h
          simp only [Nat.add_zero, placesFrom, List.mem_cons, true_or, true_and]
          intro p hp
          simp [hp]
      | succ j =>
          rw [List.getElem?_cons_succ] at h
          have := ih h (i + 1)
          rw [show i + (j + 1) = i + 1 + j by omega]
          simp only [placesFrom, List.mem_cons, List.mem_append]
          refine ⟨.inr (.inr this.1), ?_⟩
          intro p hp
          simp [this.2 hp]

namespace Class

/-- The places of all declarations in a class, in the order of the text. -/
def places (c : Class) : List Place := placesFrom [] 0 c.body

/-- What a class at any place holds is listed. -/
theorem placesFrom_subset_places {c : Class} {place : Place} {d : Declaration}
    (h : c.declaration? place = some d) : d.placesIn place ⊆ c.places := by
  -- From the inside outward: what a class holds is part of what the class around it holds.
  induction place generalizing d with
  | nil =>
      simp only [declaration?, Option.some.injEq] at h
      subst h
      rw [Declaration.placesIn_eq]
      exact List.Subset.refl _
  | cons i outer ih =>
      obtain ⟨e, he, -, hbody⟩ := isClass_of_declaration?_cons h
      rw [declaration?_cons, hbody] at h
      have hsub := ih he
      rw [Declaration.placesIn_eq] at hsub
      have := (mem_placesFrom h outer 0).2
      rw [Nat.zero_add] at this
      exact List.Subset.trans this hsub

/-- Every declaration in a class is listed. -/
theorem mem_places {c : Class} {i : Nat} {outer : Place} {d : Declaration}
    (h : c.declaration? (i :: outer) = some d) : (i :: outer) ∈ c.places := by
  obtain ⟨e, he, -, hbody⟩ := isClass_of_declaration?_cons h
  rw [declaration?_cons, hbody] at h
  have hsub := placesFrom_subset_places he
  rw [Declaration.placesIn_eq] at hsub
  have := (mem_placesFrom h outer 0).1
  rw [Nat.zero_add] at this
  exact hsub this

end Class

mutual

/-- What is listed inside a declaration is a declaration. -/
theorem Declaration.declaration?_of_mem_placesIn {c : Class} {place q : Place} :
    (d : Declaration) → c.declaration? place = some d → q ∈ d.placesIn place →
      ∃ e, c.declaration? q = some e
  | .classDef name body span, h, hq =>
      declaration?_of_mem_placesFrom body (by rw [Class.bodyAt_of_declaration? h]; rfl) hq
  | .method m, _, hq => by simp [Declaration.placesIn] at hq
  | .field f, _, hq => by simp [Declaration.placesIn] at hq

/-- What is listed of the rest of a body is a declaration. -/
theorem declaration?_of_mem_placesFrom {c : Class} {outer q : Place} {i : Nat} :
    (ds : List Declaration) → (c.bodyAt outer).drop i = ds → q ∈ placesFrom outer i ds →
      ∃ e, c.declaration? q = some e
  | [], _, hq => by simp [placesFrom] at hq
  | d :: rest, h, hq => by
      obtain ⟨hd, hrest⟩ := Class.declaration?_of_drop h
      rw [placesFrom, List.mem_cons, List.mem_append] at hq
      rcases hq with rfl | hq | hq
      · exact ⟨d, hd⟩
      · exact d.declaration?_of_mem_placesIn hd hq
      · exact declaration?_of_mem_placesFrom rest hrest hq

end

mutual

/-- The places inside a declaration are numbered one after the other. -/
theorem Declaration.map_number_placesIn (c : Class) (place : Place) :
    (d : Declaration) → c.declaration? place = some d →
      (d.placesIn place).map c.number =
        List.range' (c.number place + 1) (countDeclarations d.body)
  | .classDef name body span, h => by
      have hbody : c.bodyAt place = body := Class.bodyAt_of_declaration? h
      have := map_number_placesFrom c place 0 body (by rw [hbody, List.drop_zero])
      rw [Class.number_first] at this
      simpa [Declaration.placesIn, Declaration.body] using this
  | .method m, _ => by simp [Declaration.placesIn, Declaration.body, countDeclarations]
  | .field f, _ => by simp [Declaration.placesIn, Declaration.body, countDeclarations]

/-- The places of the rest of a body are numbered one after the other. -/
theorem map_number_placesFrom (c : Class) (outer : Place) (i : Nat) :
    (ds : List Declaration) → (c.bodyAt outer).drop i = ds →
      (placesFrom outer i ds).map c.number =
        List.range' (c.number (i :: outer)) (countDeclarations ds)
  | [], _ => by simp [placesFrom, countDeclarations]
  | d :: rest, h => by
      obtain ⟨hd, hrest⟩ := Class.declaration?_of_drop h
      have hin := d.map_number_placesIn c (i :: outer) hd
      have hfrom := map_number_placesFrom c outer (i + 1) rest hrest
      rw [Class.number_next hd] at hfrom
      rw [placesFrom, List.map_cons, List.map_append, hin, hfrom, countDeclarations, d.count_eq,
        show countDeclarations d.body + 1 + countDeclarations rest =
          (countDeclarations d.body + countDeclarations rest) + 1 by omega,
        List.range'_succ, ← List.range'_append_1]
      rw [show c.number (i :: outer) + (countDeclarations d.body + 1) =
        c.number (i :: outer) + 1 + countDeclarations d.body by omega]

end

namespace Class

/-- The listed places are numbered from one. -/
theorem map_number_places (c : Class) :
    c.places.map c.number = List.range' 1 (countDeclarations c.body) := by
  have := map_number_placesFrom c [] 0 c.body (by simp)
  rwa [number_first, number, Nat.zero_add] at this

/-- What is listed is a declaration. -/
theorem declaration?_of_mem_places {c : Class} {place : Place} (h : place ∈ c.places) :
    ∃ d, c.declaration? place = some d :=
  declaration?_of_mem_placesFrom c.body rfl h

/-- The place listed at an index has the next number. -/
theorem number_getElem?_places {c : Class} {n : Nat} {place : Place}
    (h : c.places[n]? = some place) : c.number place = n + 1 := by
  -- Both lists of numbers are read at the index.
  have hmap := congrArg (·[n]?) c.map_number_places
  simp only [List.getElem?_map, h, Option.map_some] at hmap
  obtain ⟨hlen, heq⟩ := List.getElem?_eq_some_iff.1 hmap.symm
  rw [← heq, List.getElem_range']
  omega

/-- The whole class is not listed. -/
theorem nil_notMem_places (c : Class) : [] ∉ c.places := by
  intro h
  obtain ⟨n, hn⟩ := List.mem_iff_getElem?.1 h
  cases (number_getElem?_places hn : 0 = n + 1)

/-- There are as many places as declarations. -/
theorem length_places (c : Class) : c.places.length = countDeclarations c.body := by
  have := congrArg List.length c.map_number_places
  simpa using this

/-- A number belongs to one declaration only. -/
theorem number_inj {c : Class} {p q : Place} {d e : Declaration}
    (hp : c.declaration? p = some d) (hq : c.declaration? q = some e)
    (h : c.number p = c.number q) : p = q := by
  have hnodup : (c.places.map c.number).Nodup := by
    rw [map_number_places]
    exact List.nodup_range'
  -- The whole class has the number 0 alone. All other places are listed.
  cases p with
  | nil =>
      cases q with
      | nil => rfl
      | cons j q => simp only [number] at h; omega
  | cons i p =>
      cases q with
      | nil => simp only [number] at h; omega
      | cons j q => exact List.inj_on_of_nodup_map hnodup (mem_places hp) (mem_places hq) h

end Class

end Bucket
