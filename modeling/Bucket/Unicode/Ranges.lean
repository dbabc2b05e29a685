/-
# Classes of characters

A class of characters is given by the ranges of code points that it holds, in ascending order. The
main fact is that looking a code point up and lying in one of the ranges are the same
(`Ranges.holds_iff`).
-/

namespace Bucket.Unicode

/-- Ranges of code points, each from its first member up to, but not including, its second. -/
abbrev Ranges := List (Nat × Nat)

namespace Ranges

/-- Whether a code point lies in one of the ranges. The search stops at the first range that begins
after it. -/
def holds (n : Nat) : Ranges → Bool
  | [] => false
  | (start, stop) :: rest => if n < start then false else n < stop || holds n rest

/-- Whether one of the ranges has a code point from `start` up to, but not including, `stop`. -/
def meets (start stop : Nat) (ranges : Ranges) : Bool :=
  ranges.any fun r => max start r.1 < min stop r.2

/-- Whether the ranges are not empty and follow each other in ascending order, none before `o`. -/
def ascendingFrom (o : Nat) : Ranges → Bool
  | [] => true
  | (start, stop) :: rest => o ≤ start && start < stop && ascendingFrom stop rest

/-- Ranges meet a stretch of code points when one of them lies in both. -/
theorem meets_iff {start stop : Nat} {ranges : Ranges} :
    meets start stop ranges = true ↔ ∃ r ∈ ranges, ∃ n, start ≤ n ∧ n < stop ∧ r.1 ≤ n ∧ n < r.2 := by
  simp only [meets, List.any_eq_true, decide_eq_true_eq]
  constructor
  · rintro ⟨r, hr, h⟩
    exact ⟨r, hr, max start r.1, by omega⟩
  · rintro ⟨r, hr, n, h⟩
    exact ⟨r, hr, by omega⟩

/-- Nothing below the first of ascending ranges lies in one of them. -/
theorem not_mem_of_lt {n o : Nat} {ranges : Ranges} (h : ascendingFrom o ranges = true)
    (hn : n < o) : ¬ ∃ r ∈ ranges, r.1 ≤ n ∧ n < r.2 := by
  induction ranges generalizing o with
  | nil => simp
  | cons r rest ih =>
      obtain ⟨start, stop⟩ := r
      simp only [ascendingFrom, Bool.and_eq_true, decide_eq_true_eq] at h
      intro ⟨r, hr, hlo, hhi⟩
      rcases List.mem_cons.1 hr with rfl | hr
      · simp only at hlo; omega
      · exact ih h.2 (by omega) ⟨r, hr, hlo, hhi⟩

/-- Looking a code point up in ascending ranges finds whether it lies in one of them. -/
theorem holds_iff {n o : Nat} {ranges : Ranges} (h : ascendingFrom o ranges = true) :
    holds n ranges = true ↔ ∃ r ∈ ranges, r.1 ≤ n ∧ n < r.2 := by
  induction ranges generalizing o with
  | nil => simp [holds]
  | cons r rest ih =>
      obtain ⟨start, stop⟩ := r
      have hasc := h
      simp only [ascendingFrom, Bool.and_eq_true, decide_eq_true_eq] at h
      by_cases hn : n < start
      · have hasc' : ascendingFrom start ((start, stop) :: rest) = true := by
          simp [ascendingFrom, h.1.2, h.2]
        have := not_mem_of_lt hasc' hn
        simp [holds, hn] at this ⊢
        exact this
      · rw [holds, if_neg hn, Bool.or_eq_true, decide_eq_true_eq, ih h.2]
        constructor
        · rintro (hlt | ⟨r, hr, hb⟩)
          · exact ⟨(start, stop), by simp, by simp only; omega, hlt⟩
          · exact ⟨r, by simp [hr], hb⟩
        · rintro ⟨r, hr, hlo, hhi⟩
          rcases List.mem_cons.1 hr with rfl | hr
          · exact .inl hhi
          · exact .inr ⟨r, hr, hlo, hhi⟩

end Ranges

end Bucket.Unicode
