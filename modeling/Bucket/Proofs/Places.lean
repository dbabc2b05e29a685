/-
# Places by offset and by moving

The place of a byte offset is looked up in an index of the lines, and a cursor carries its place along.
For every offset the two agree at the last boundary between characters that is not behind it
(`Source.positionAt_of_isGreatest`, `Source.exists_standsAt_iterate_next`). So places ascend with
offsets, a cursor shows each character once and then stays at the end, and writing these gives the text
(`Source.places_agree`).
-/
import Bucket.Command.Run
import Bucket.Proofs.Lexing.Standing
import Mathlib.Data.Nat.SuccPred

namespace Bucket

open String (utf8Len)

/-! ## Moving -/

namespace Cursor

/-- Moving again and again passes as many characters. -/
theorem iterate_next (n : Nat) (c : Cursor) : next^[n] c = c.skip n := by
  induction n generalizing c with
  | zero => exact c.skip_zero.symm
  | succ n ih => rw [Function.iterate_succ_apply, ih, skip_succ]

/-- Behind some characters the next one is shown. -/
theorem current_skip (n : Nat) (c : Cursor) : (c.skip n).current = c.rest[n]? := by
  rw [current, skip, List.head?_drop]

/-- Nothing is left behind all characters. -/
theorem skip_of_length_le {n : Nat} {c : Cursor} (h : c.rest.length ≤ n) :
    c.skip n = ⟨c.endPosition, []⟩ := by
  rw [skip, List.take_of_length_le h, List.drop_of_length_le h, endPosition]

end Cursor

/-! ## Lines begin at boundaries -/

theorem start_mem_boundariesFrom (o : Nat) (text : List Char) : o ∈ boundariesFrom o text := by
  cases text <;> exact List.mem_cons_self

/-- Where a line begins a character does, or the text ends. -/
theorem mem_boundariesFrom_of_mem_linesFrom {i o : Nat} {text : List Char} (h : i ∈ linesFrom o text) :
    i ∈ boundariesFrom o text := by
  induction text generalizing o with
  | nil => cases h
  | cons c rest ih =>
      refine List.mem_cons_of_mem o ?_
      rw [linesFrom] at h
      split at h
      · rcases List.mem_cons.1 h with rfl | h
        · exact start_mem_boundariesFrom _ rest
        · exact ih h
      · exact ih h

namespace Source

variable {s : Source} {o o' b b' : Nat}

theorem mem_boundaries_of_mem_lineStarts (h : o ∈ s.lineStarts) : o ∈ s.boundaries := by
  rcases List.mem_cons.1 h with rfl | h
  · exact start_mem_boundariesFrom 0 s.chars
  · exact mem_boundariesFrom_of_mem_linesFrom h

/-! ## The last boundary -/

/-- In front of every offset, or at it, there is a last boundary. -/
theorem exists_isGreatest_boundary (s : Source) (o : Nat) :
    ∃ b, IsGreatest {b | b ∈ s.boundaries ∧ b ≤ o} b := by
  have hbounded : BddAbove {b | b ∈ s.boundaries ∧ b ≤ o} := ⟨o, fun _ hb => hb.2⟩
  exact hbounded.exists_isGreatest_of_nonempty
    ⟨0, start_mem_boundariesFrom 0 s.chars, Nat.zero_le o⟩

/-- The last boundary in front of an offset has the same place, since neither a line begins between the
two nor a character. -/
theorem positionAt_of_isGreatest (h : IsGreatest {b | b ∈ s.boundaries ∧ b ≤ o} b) :
    s.positionAt o = s.positionAt b := by
  obtain ⟨⟨hb, hle⟩, hgreatest⟩ := h
  have hsize := le_byteSize_of_mem_boundaries hb
  have hiff : ∀ i ∈ s.boundaries, i ≤ min o s.byteSize ↔ i ≤ min b s.byteSize := by
    intro i hi
    constructor
    · intro hio
      have hib : i ≤ b := hgreatest ⟨hi, by omega⟩
      omega
    · intro hib
      omega
  have hlines : s.lineStarts.filter (· ≤ min o s.byteSize) =
      s.lineStarts.filter (· ≤ min b s.byteSize) :=
    List.filter_congr fun i hi => decide_eq_decide.2 (hiff i (mem_boundaries_of_mem_lineStarts hi))
  have hcolumns : ∀ start, s.boundaries.filter (fun i => start < i && i ≤ min o s.byteSize) =
      s.boundaries.filter fun i => start < i && i ≤ min b s.byteSize :=
    fun start => List.filter_congr fun i hi =>
      congrArg (decide (start < i) && ·) (decide_eq_decide.2 (hiff i hi))
  simp only [positionAt, hlines, hcolumns]

/-- Behind the end of the text every offset has the place of the end. -/
theorem positionAt_of_byteSize_le (h : s.byteSize ≤ o) : s.positionAt o = s.endPosition := by
  have hgreatest : IsGreatest {b | b ∈ s.boundaries ∧ b ≤ o} s.byteSize :=
    ⟨⟨s.byteSize_mem_boundaries, h⟩, fun _ hi => le_byteSize_of_mem_boundaries hi.1⟩
  rw [positionAt_of_isGreatest hgreatest, positionAt_byteSize]

/-- A cursor comes to every boundary by moving. -/
theorem exists_standsAt_iterate_next (h : b ∈ s.boundaries) :
    ∃ n, s.StandsAt (Cursor.next^[n] s.cursor) b := by
  obtain ⟨before, behind, hs, rfl⟩ := mem_boundaries_iff.1 h
  refine ⟨before.length, ?_⟩
  have hskip := (StandsAt.cursor s).skip before.length
  have hrest : s.cursor.rest = before ++ behind := hs
  rw [hrest, List.take_left, Nat.zero_add] at hskip
  rwa [Cursor.iterate_next]

/-- Places ascend with offsets. -/
theorem positionAt_mono (s : Source) : Monotone s.positionAt := by
  intro o o' hle
  obtain ⟨b, hb⟩ := s.exists_isGreatest_boundary o
  obtain ⟨b', hb'⟩ := s.exists_isGreatest_boundary o'
  rw [positionAt_of_isGreatest hb, positionAt_of_isGreatest hb']
  exact positionAt_le_positionAt hb.1.1 hb'.1.1 (hb'.2 ⟨hb.1.1, hb.1.2.trans hle⟩)

end Source

/-! ## Agreement -/

/-- For a text, without the byte order mark that it may begin with, and every byte offset, also inside a
character or behind the end: the place of the offset is the one that a cursor shows when it has moved to
the last boundary that is not behind the offset. Moving shows the characters of the text, each once and
in order, and then stays at the end. So places ascend with offsets, strictly between boundaries, and
what is written by moving is the text. -/
theorem Source.places_agree (name text : String) :
    let s := Source.ofText name text
    let reached := fun n => Cursor.next^[n] s.cursor
    s.chars = dropByteOrderMark text.toList ∧
    (∀ o, ∃ b n, IsGreatest {b | b ∈ s.boundaries ∧ b ≤ o} b ∧ s.StandsAt (reached n) b ∧
      s.positionAt o = (reached n).position) ∧
    (∀ o, s.byteSize ≤ o → s.positionAt o = s.endPosition) ∧
    (∀ n, (reached n).current = s.chars[n]?) ∧
    (∀ n, s.chars.length ≤ n →
      (reached n).current = none ∧ (reached n).position = s.endPosition ∧
        (reached n).next = reached n) ∧
    Monotone s.positionAt ∧
    StrictMonoOn s.positionAt {b | b ∈ s.boundaries} ∧
    Command.read s = ⟨String.ofList (dropByteOrderMark text.toList), none⟩ := by
  intro s reached
  have hchars : s.chars = dropByteOrderMark text.toList := String.toList_ofList
  refine ⟨hchars, ?_, fun o => positionAt_of_byteSize_le, ?_, ?_, s.positionAt_mono, ?_, ?_⟩
  · intro o
    obtain ⟨b, hb⟩ := s.exists_isGreatest_boundary o
    obtain ⟨n, hstands⟩ := exists_standsAt_iterate_next hb.1.1
    refine ⟨b, n, hb, hstands, ?_⟩
    rw [hstands.position_eq, positionAt_of_isGreatest hb]
  · intro n
    have hreached : reached n = s.cursor.skip n := Cursor.iterate_next n s.cursor
    rw [hreached, Cursor.current_skip]
    rfl
  · intro n hn
    have hreached : reached n = ⟨s.endPosition, []⟩ :=
      (Cursor.iterate_next n s.cursor).trans (Cursor.skip_of_length_le hn)
    rw [hreached]
    exact ⟨rfl, rfl, rfl⟩
  · intro b hb b' hb' hlt
    exact positionAt_lt_positionAt hb hb' hlt
  · rw [Command.read, Command.echo_eq, String.empty_append, ← hchars]
    rfl

/-- Inside the first letter, which has two bytes, the place is that of the letter. Behind the end it is
that of the end, and no character is shown there. -/
theorem Source.places_agree_inside :
    let s := Source.ofText "in" "\ufeffå\nb"
    s.chars = ['å', '\n', 'b'] ∧
    (∃ b n, IsGreatest {b | b ∈ s.boundaries ∧ b ≤ 1} b ∧
      s.StandsAt (Cursor.next^[n] s.cursor) b ∧
      (Cursor.next^[n] s.cursor).position = ⟨1, 1⟩) ∧
    s.positionAt 9 = ⟨2, 2⟩ ∧
    (Cursor.next^[4] s.cursor).current = none := by
  intro s
  obtain ⟨hchars, hoffset, hbehind, -, hend, -⟩ := Source.places_agree "in" "\ufeffå\nb"
  have htext : dropByteOrderMark "\ufeffå\nb".toList = ['å', '\n', 'b'] := by decide
  have hlength : s.chars.length ≤ 4 := by decide +kernel
  have hplace : s.positionAt 1 = ⟨1, 1⟩ := by decide +kernel
  have hlast : s.endPosition = ⟨2, 2⟩ := by decide +kernel
  obtain ⟨b, n, hb, hstands, hposition⟩ := hoffset 1
  exact ⟨hchars.trans htext, ⟨b, n, hb, hstands, hposition.symm.trans hplace⟩,
    (hbehind 9 (by decide +kernel)).trans hlast, (hend 4 hlength).1⟩

end Bucket
