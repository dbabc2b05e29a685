/-
# Byte offsets

Places are told in two ways: by reading a text from its start, and from a byte offset with an index of
the lines. They agree wherever a character begins: the place of the offset behind the first characters
of a text is where reading these leads (`Source.positionAt_utf8Len`).
-/
import Bucket.Source.Basic
import Mathlib.Data.List.Induction
import Mathlib.Data.String.Basic

namespace Bucket

open String (utf8Len)

/-! ## Offsets behind a piece of text -/

variable {o i : Nat} {a b : List Char}

theorem linesFrom_append (o : Nat) (a b : List Char) :
    linesFrom o (a ++ b) = linesFrom o a ++ linesFrom (o + utf8Len a) b := by
  induction a generalizing o with
  | nil => rfl
  | cons c a ih =>
      have hsize : o + c.utf8Size + utf8Len a = o + utf8Len (c :: a) := by
        rw [String.utf8Len_cons]
        omega
      rw [List.cons_append, linesFrom, linesFrom, ih, hsize]
      split <;> rfl

theorem boundariesFrom_append (o : Nat) (a b : List Char) :
    boundariesFrom o (a ++ b) =
      boundariesFrom o a ++ (boundariesFrom (o + utf8Len a) b).tail := by
  induction a generalizing o with
  | nil => cases b <;> rfl
  | cons c a ih =>
      have hsize : o + c.utf8Size + utf8Len a = o + utf8Len (c :: a) := by
        rw [String.utf8Len_cons]
        omega
      rw [List.cons_append, boundariesFrom, boundariesFrom, ih, hsize]
      rfl

/-- Lines begin behind the offset of a text and not behind its end. -/
theorem bounds_of_mem_linesFrom (h : i ∈ linesFrom o a) : o < i ∧ i ≤ o + utf8Len a := by
  induction a generalizing o with
  | nil => cases h
  | cons c a ih =>
      have hsize := c.utf8Size_pos
      rw [String.utf8Len_cons]
      rw [linesFrom] at h
      split at h
      · rcases List.mem_cons.1 h with rfl | h
        · omega
        · have := ih h
          omega
      · have := ih h
        omega

/-- Characters begin no earlier than the offset of a text and not behind its end. -/
theorem bounds_of_mem_boundariesFrom (h : i ∈ boundariesFrom o a) :
    o ≤ i ∧ i ≤ o + utf8Len a := by
  induction a generalizing o with
  | nil => simp_all [boundariesFrom]
  | cons c a ih =>
      rw [String.utf8Len_cons]
      rcases List.mem_cons.1 h with rfl | h
      · omega
      · have := ih h
        omega

theorem lt_of_mem_tail_boundariesFrom (h : i ∈ (boundariesFrom o a).tail) : o < i := by
  cases a with
  | nil => cases h
  | cons c a =>
      have hsize := c.utf8Size_pos
      have := bounds_of_mem_boundariesFrom h
      omega

/-- The end of a text is one of its boundaries. -/
theorem mem_boundariesFrom_utf8Len (o : Nat) (a b : List Char) :
    o + utf8Len a ∈ boundariesFrom o (a ++ b) := by
  induction a generalizing o with
  | nil => cases b <;> simp [boundariesFrom]
  | cons c a ih =>
      have hsize : o + utf8Len (c :: a) = o + c.utf8Size + utf8Len a := by
        rw [String.utf8Len_cons]
        omega
      rw [hsize]
      exact List.mem_cons_of_mem _ (ih _)

/-! ## Positions -/

/-- The offset where the last line of a text begins. -/
def lastLineStart (a : List Char) : Nat := (0 :: linesFrom 0 a).getLastD 0

theorem lastLineStart_le (a : List Char) : lastLineStart a ≤ utf8Len a := by
  rw [lastLineStart, List.getLastD_cons]
  cases h : (linesFrom 0 a).getLast? with
  | none => simp [List.getLastD_eq_getLast?, h]
  | some i =>
      have := bounds_of_mem_linesFrom (List.mem_of_getLast? h)
      rw [List.getLastD_eq_getLast?, h, Option.getD_some]
      omega

theorem linesFrom_concat (a : List Char) (c : Char) :
    linesFrom 0 (a ++ [c]) =
      linesFrom 0 a ++ if c = '\n' then [utf8Len a + c.utf8Size] else [] := by
  rw [linesFrom_append, Nat.zero_add]
  rfl

/-- A newline begins a line behind it, and other characters belong to the line they stand in. -/
theorem lastLineStart_concat (a : List Char) (c : Char) :
    lastLineStart (a ++ [c]) = if c = '\n' then utf8Len a + c.utf8Size else lastLineStart a := by
  rw [lastLineStart, linesFrom_concat]
  split
  · rw [← List.cons_append, List.getLastD_eq_getLast?, List.getLast?_concat]
    rfl
  · rw [List.append_nil, lastLineStart]

/-- The place behind a text is told by the lines that begin in it and the characters of the last. -/
theorem after_first_eq (a : List Char) :
    Position.first.after a =
      ⟨(linesFrom 0 a).length + 1,
        1 + ((boundariesFrom 0 a).filter (lastLineStart a < ·)).length⟩ := by
  induction a using List.reverseRecOn with
  | nil => rfl
  | append_singleton a c ih =>
      have hboundaries : boundariesFrom 0 (a ++ [c]) =
          boundariesFrom 0 a ++ [utf8Len a + c.utf8Size] := by
        rw [boundariesFrom_append, Nat.zero_add]
        rfl
      rw [Position.after_append, ih, Position.after_cons, Position.after_nil, Position.advance,
        hboundaries, lastLineStart_concat, linesFrom_concat]
      split
      case isTrue =>
        -- The new line begins at the end of the text, so no character of it is passed.
        have hnone : ∀ i ∈ boundariesFrom 0 a ++ [utf8Len a + c.utf8Size],
            ¬ decide (utf8Len a + c.utf8Size < i) = true := by
          intro i hi
          simp only [decide_eq_true_eq]
          rcases List.mem_append.1 hi with hi | hi
          · have := bounds_of_mem_boundariesFrom hi
            omega
          · have := List.mem_singleton.1 hi
            omega
        rw [List.filter_eq_nil_iff.2 hnone, List.length_append]
        rfl
      case isFalse =>
        have hsize := c.utf8Size_pos
        have hstart := lastLineStart_le a
        have hpassed : decide (lastLineStart a < utf8Len a + c.utf8Size) = true :=
          decide_eq_true (by omega)
        rw [List.append_nil, List.filter_append, List.length_append]
        simp only [List.filter_singleton, hpassed]
        rfl

namespace Source

/-- The place of the offset behind the first characters of a source is where these lead. -/
theorem positionAt_utf8Len {s : Source} (h : s.chars = a ++ b) :
    s.positionAt (utf8Len a) = Position.first.after a := by
  have hsize : s.byteSize = utf8Len a + utf8Len b := by
    rw [byteSize, ← String.utf8Len_toList, ← String.utf8Len_append]
    exact congrArg utf8Len h
  have hlines : s.lineStarts.filter (· ≤ utf8Len a) = 0 :: linesFrom 0 a := by
    have hbefore : ∀ i ∈ linesFrom 0 a, decide (i ≤ utf8Len a) = true := by
      intro i hi
      have := bounds_of_mem_linesFrom hi
      exact decide_eq_true (by omega)
    have hbehind : ∀ i ∈ linesFrom (0 + utf8Len a) b, ¬ decide (i ≤ utf8Len a) = true := by
      intro i hi
      have := bounds_of_mem_linesFrom hi
      simp only [decide_eq_true_eq]
      omega
    rw [lineStarts, h, linesFrom_append, List.filter_cons_of_pos (by simp), List.filter_append,
      List.filter_eq_self.2 hbefore, List.filter_eq_nil_iff.2 hbehind, List.append_nil]
  have hboundaries : ∀ start, s.boundaries.filter (fun i => start < i && i ≤ utf8Len a) =
      (boundariesFrom 0 a).filter (start < ·) := by
    intro start
    have hbehind : ∀ i ∈ (boundariesFrom (0 + utf8Len a) b).tail,
        ¬ (decide (start < i) && decide (i ≤ utf8Len a)) = true := by
      intro i hi
      have := lt_of_mem_tail_boundariesFrom hi
      simp only [Bool.and_eq_true, decide_eq_true_eq]
      omega
    rw [boundaries, h, boundariesFrom_append, List.filter_append, List.filter_eq_nil_iff.2 hbehind,
      List.append_nil]
    refine List.filter_congr fun i hi => ?_
    have := bounds_of_mem_boundariesFrom hi
    simp only [decide_eq_true (show i ≤ utf8Len a by omega), Bool.and_true]
  simp only [positionAt, hsize, Nat.min_eq_left (Nat.le_add_right _ _), hlines, hboundaries]
  exact (after_first_eq a).symm

/-- The end of the first characters of a source is one of its boundaries. -/
theorem utf8Len_mem_boundaries {s : Source} (h : s.chars = a ++ b) : utf8Len a ∈ s.boundaries := by
  have hmem := mem_boundariesFrom_utf8Len 0 a b
  rwa [Nat.zero_add, ← h] at hmem

/-! ## Slices -/

/-- The text between two byte offsets of a source. -/
def slice (s : Source) (start stop : Nat) : String :=
  String.Pos.Raw.extract s.text ⟨start⟩ ⟨stop⟩

/-- Between the offsets of both ends of a piece of text stands that piece. -/
theorem slice_utf8Len {s : Source} {piece : List Char} (h : s.chars = a ++ piece ++ b) :
    s.slice (utf8Len a) (utf8Len (a ++ piece)) = String.ofList piece := by
  rw [slice, String.utf8Len_append, ← String.extract_of_valid a piece b, ← h, chars,
    String.ofList_toList]

end Source

end Bucket
