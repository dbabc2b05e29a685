/-
# Exchanged indices, places and numbers

When two declarations that follow each other in a body change places, all that they hold has other places
(`Class.crossed`) and other numbers (`Module.exchange`). Here is said of the exchanged body what it has at
the other indices (`getElem?_swapAt`), how much is in front of them (`countDeclarations_take_swapAt`) and
what is found there first (`findIdx?_take_swapAt`).
-/
import Bucket.Module.Object
import Bucket.Proofs.Scoping.Place
import Mathlib.Logic.Function.Basic
import Mathlib.Tactic.SplitIfs

namespace Bucket

/-! ## Exchanged numbers -/

namespace Module

variable {first a b id n m : Nat}

/-- The number of an object when two blocks of objects change places. The first block has `a` objects from
`first` on, and the second one the `b` objects behind those. -/
def exchange (first a b id : Nat) : Nat :=
  if id < first then id
  else if id < first + a then id + b
  else if id < first + a + b then id - a
  else id

/-- Exchanging the blocks again puts them back. -/
theorem exchange_exchange : exchange first b a (exchange first a b id) = id := by
  unfold exchange
  split_ifs <;> omega

theorem exchange_bijective (first a b : Nat) : Function.Bijective (exchange first a b) :=
  Function.bijective_iff_has_inverse.2
    ⟨exchange first b a, fun _ => exchange_exchange, fun _ => exchange_exchange⟩

/-- With more objects in front all numbers are greater by those. -/
theorem exchange_add : exchange (n + first) a b (n + m) = n + exchange first a b m := by
  unfold exchange
  split_ifs <;> omega

/-- What is inside the same blocks moves as far. -/
theorem exchange_add_right (ha : first ≤ id + n ∧ id + n < first + a ↔ first ≤ id ∧ id < first + a)
    (hb : first + a ≤ id + n ∧ id + n < first + a + b ↔ first + a ≤ id ∧ id < first + a + b) :
    exchange first a b (id + n) = exchange first a b id + n := by
  unfold exchange
  split_ifs <;> omega

/-- Numbers in front of the blocks stay. -/
theorem exchange_of_lt (h : id < first) : exchange first a b id = id := if_pos h

end Module

/-! ## Exchanged bodies -/

/-- The index of a declaration when those at an index and behind it change places. -/
def swapAt : Nat → Nat → Nat
  | 0, 0 => 1
  | 0, 1 => 0
  | 0, j => j
  | _ + 1, 0 => 0
  | i + 1, j + 1 => swapAt i j + 1

@[simp] theorem swapAt_zero_zero : swapAt 0 0 = 1 := rfl

@[simp] theorem swapAt_zero_one : swapAt 0 1 = 0 := rfl

@[simp] theorem swapAt_zero_add_two (j : Nat) : swapAt 0 (j + 2) = j + 2 := rfl

@[simp] theorem swapAt_succ_zero (i : Nat) : swapAt (i + 1) 0 = 0 := rfl

@[simp] theorem swapAt_succ_succ (i j : Nat) : swapAt (i + 1) (j + 1) = swapAt i j + 1 := rfl

theorem swapAt_swapAt (i j : Nat) : swapAt i (swapAt i j) = j := by
  induction i generalizing j with
  | zero => rcases j with _ | _ | j <;> rfl
  | succ i ih =>
      cases j with
      | zero => rfl
      | succ j => rw [swapAt_succ_succ, swapAt_succ_succ, ih]

section

variable (front back : List Declaration) (s₁ s₂ : Declaration)

/-- Each declaration is found at its other index. -/
theorem getElem?_swapAt (j : Nat) :
    (front ++ s₂ :: s₁ :: back)[swapAt front.length j]? = (front ++ s₁ :: s₂ :: back)[j]? := by
  induction front generalizing j with
  | nil => rcases j with _ | _ | j <;> rfl
  | cons d rest ih =>
      cases j with
      | zero => rfl
      | succ j => exact ih j

/-- As many declarations are in front of each as its other number tells. -/
theorem countDeclarations_take_swapAt (j : Nat) :
    countDeclarations ((front ++ s₂ :: s₁ :: back).take (swapAt front.length j)) =
      Module.exchange (countDeclarations front) s₁.count s₂.count
        (countDeclarations ((front ++ s₁ :: s₂ :: back).take j)) := by
  have h₁ := s₁.count_eq
  have h₂ := s₂.count_eq
  induction front generalizing j with
  | nil =>
      rcases j with _ | _ | j
      · simp [countDeclarations, Module.exchange, h₁]
      · simp [countDeclarations, Module.exchange, h₂]
      · simp only [List.nil_append, List.length_nil, Nat.add_assoc, Nat.reduceAdd,
          swapAt_zero_add_two, List.take_succ_cons, countDeclarations, Module.exchange]
        split_ifs <;> omega
  | cons d rest ih =>
      cases j with
      | zero =>
          have hpos : 0 < countDeclarations (d :: rest) := by
            rw [countDeclarations, d.count_eq]
            omega
          exact (Module.exchange_of_lt hpos).symm
      | succ j =>
          simp only [List.cons_append, List.length_cons, swapAt_succ_succ, List.take_succ_cons,
            countDeclarations, ih j, Module.exchange_add]

/-- In front of each declaration the same one is the first of its kind, when the two exchanged ones are not
of that kind both and neither of them is looked for from the other one. -/
theorem findIdx?_take_swapAt (kind : Declaration → Bool) {j : Nat}
    (hkind : kind s₁ = false ∨ kind s₂ = false) (h₁ : j = front.length → kind s₂ = false)
    (h₂ : j = front.length + 1 → kind s₁ = false) :
    ((front ++ s₂ :: s₁ :: back).take (swapAt front.length j)).findIdx? kind =
      (((front ++ s₁ :: s₂ :: back).take j).findIdx? kind).map (swapAt front.length) := by
  induction front generalizing j with
  | nil =>
      rcases j with _ | _ | j
      · simp [h₁ rfl]
      · simp [h₂ rfl]
      · -- Both stand in front, and only one of them may be of the kind.
        simp only [List.nil_append, List.length_nil, swapAt_zero_add_two, List.take_succ_cons,
          List.findIdx?_cons]
        generalize (back.take j).findIdx? kind = found
        rcases hkind with hkind | hkind
        · rw [hkind]
          cases kind s₂ <;> cases found <;> rfl
        · rw [hkind]
          cases kind s₁ <;> cases found <;> rfl
  | cons d rest ih =>
      cases j with
      | zero => rfl
      | succ j =>
          simp only [List.length_cons, Nat.add_right_cancel_iff] at h₁ h₂
          simp only [List.cons_append, List.length_cons, swapAt_succ_succ, List.take_succ_cons,
            List.findIdx?_cons, ih h₁ h₂]
          cases kind d with
          | true => rfl
          | false => simp [Function.comp_def]

/-- Both bodies hold as many declarations. -/
theorem countDeclarations_exchange :
    countDeclarations (front ++ s₂ :: s₁ :: back) =
      countDeclarations (front ++ s₁ :: s₂ :: back) := by
  simp only [countDeclarations_append, countDeclarations]
  omega

end

namespace Class

/-! ## Exchanged places -/

section

variable {i j : Nat} {outer p : Place}

/-- The place of a declaration when those at an index of the body at a place and behind it change
places. -/
def crossed (i : Nat) (outer : Place) : Place → Place
  | [] => []
  | j :: p => (if p = outer then swapAt i j else j) :: crossed i outer p

theorem crossed_cons_of_ne (h : p ≠ outer) : crossed i outer (j :: p) = j :: crossed i outer p := by
  rw [crossed, if_neg h]

/-- What is not inside the body stays in its place. -/
theorem crossed_eq_self (h : ∀ j, ¬ (j :: outer) <:+ p) : crossed i outer p = p := by
  induction p with
  | nil => rfl
  | cons k p ih =>
      have hne : p ≠ outer := by
        rintro rfl
        exact h k (List.suffix_refl _)
      rw [crossed_cons_of_ne hne, ih fun j hj => h j (hj.trans (List.suffix_cons k p))]

theorem crossed_outer (i : Nat) (outer : Place) : crossed i outer outer = outer := by
  refine crossed_eq_self fun j hj => ?_
  have := hj.length_le
  rw [List.length_cons] at this
  omega

/-- In the body the two indices are exchanged. -/
theorem crossed_inside (i j : Nat) (outer : Place) :
    crossed i outer (j :: outer) = swapAt i j :: outer := by
  rw [crossed, if_pos rfl, crossed_outer]

/-- What is deeper inside goes along. -/
theorem crossed_append (i j : Nat) (r outer : Place) :
    crossed i outer (r ++ j :: outer) = r ++ swapAt i j :: outer := by
  induction r with
  | nil => exact crossed_inside i j outer
  | cons k r ih =>
      have hne : r ++ j :: outer ≠ outer := by
        intro h
        have := congrArg List.length h
        rw [List.length_append, List.length_cons] at this
        omega
      rw [List.cons_append, crossed_cons_of_ne hne, ih, List.cons_append]

theorem crossed_crossed (i : Nat) (outer p : Place) : crossed i outer (crossed i outer p) = p := by
  induction p with
  | nil => rfl
  | cons j p ih =>
      by_cases h : p = outer
      · subst h
        rw [crossed_inside, crossed_inside, swapAt_swapAt]
      · have hne : crossed i outer p ≠ outer := by
          intro heq
          rw [heq, crossed_outer] at ih
          exact h ih.symm
        rw [crossed_cons_of_ne h, crossed_cons_of_ne hne, ih]

end

end Class

end Bucket
