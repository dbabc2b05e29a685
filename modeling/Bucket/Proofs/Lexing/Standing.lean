/-
# Where a lexer stands

Whatever a lexer has read, and however many faults it met, it stands between two characters of its
source. Each lexeme takes at least one character, and neither the lexeme nor a fault in it reaches
beyond the end of the text (`Lexeme.fits_of`). So every token goes from a boundary between characters
to a later one, a fault lies on such a boundary, and nothing that is read stands in front of what was
read before (`Source.StandsAt.pull`).
-/
import Bucket.Proofs.Lexing.Tiling
import Mathlib.Logic.Relation

namespace Bucket

open Lexer
open String (utf8Len)

/-! ## Lexemes lie in their text -/

namespace Lexer

/-- A bad escape of a string stands in the text. -/
theorem lt_length_of_badEscape {text : List Char} {offset : Nat}
    (h : readString text = .badEscape offset) : offset < text.length := by
  have hpush : ∀ {reading : StringReading} {d : Char} {k n : Nat},
      reading.push d k = .badEscape n → ∃ n', reading = .badEscape n' ∧ n = n' + k := by
    intro reading d k n hpush
    cases reading with
    | closed value taken => cases hpush
    | badEscape n' => exact ⟨n', rfl, (StringReading.badEscape.inj hpush).symm⟩
    | unclosed => cases hpush
  fun_induction readString text generalizing offset with
  | case1 => cases h
  | case2 => cases h
  | case3 => cases h; simp
  | case4 e rest d hd hquote ih =>
      obtain ⟨n, hr, rfl⟩ := hpush h
      have := ih hr
      simp only [List.length_cons]
      omega
  | case5 => cases h; simp
  | case6 c rest hquote hescape ih =>
      obtain ⟨n, hr, rfl⟩ := hpush h
      have := ih hr
      simp only [List.length_cons]
      omega

/-- A fault behind the character of a literal stands there, or at the opening quote. -/
theorem offset_le_of_closeCharacter {d : Char} {k offset : Nat} {fault : LexicalFault}
    {rest : List Char} (h : closeCharacter d k rest = .error (fault, offset)) : offset ≤ k := by
  cases rest with
  | nil => cases h; exact Nat.zero_le k
  | cons c rest =>
      rw [closeCharacter] at h
      split at h
      · cases h
      · cases h; exact Nat.le_refl k

/-- A fault in a character literal stands in the text, its opening quote included. -/
theorem offset_le_of_readCharacter {rest : List Char} {fault : LexicalFault} {offset : Nat}
    (h : readCharacter rest = .error (fault, offset)) : offset ≤ rest.length + 1 := by
  unfold readCharacter at h
  split at h
  · cases h; omega
  · split at h
    · cases h; omega
    · split at h
      · split at h
        · cases h; omega
        · split at h
          · have := offset_le_of_closeCharacter h
            simp only [List.length_cons]
            omega
          · cases h; omega
      · have := offset_le_of_closeCharacter h
        simp only [List.length_cons]
        omega

/-- A fault in a number stands in it, or right behind it. -/
theorem Number.offset_le_of_outcome {n : Number} {rest : List Char} {fault : LexicalFault}
    {offset : Nat} (h : n.outcome rest = .error (fault, offset)) : offset ≤ n.chars.length := by
  unfold outcome at h
  split at h
  · cases h; omega
  · split at h
    · cases h; omega
    · split at h
      · dsimp only at h
        split at h
        · cases h
        · cases h; omega
      · split at h
        · cases h
        · cases h; omega

namespace Lexeme

/-- Whether a lexeme that begins in front of a text lies in it, and a fault of the lexeme, too. A fault
may stand right behind the text. -/
structure Fits (l : Lexeme) (rest : List Char) : Prop where
  more_le : l.more ≤ rest.length
  offset_le : ∀ fault offset, l.meaning = .fault fault offset → offset ≤ rest.length + 1

theorem fits_sign (s : Symbol) (rest : List Char) : (sign s).Fits rest :=
  ⟨Nat.zero_le _, fun _ _ h => by cases h⟩

theorem fits_signOrEquals (alone withEquals : Symbol) (rest : List Char) :
    (signOrEquals alone withEquals rest).Fits rest := by
  unfold signOrEquals
  split
  · exact ⟨by simp, fun _ _ h => by cases h⟩
  · exact fits_sign alone _

theorem fits_bang (rest : List Char) : (bang rest).Fits rest := by
  unfold bang
  split
  · exact ⟨by simp, fun _ _ h => by cases h⟩
  · exact ⟨Nat.zero_le _, fun _ _ h => by cases h; omega⟩

theorem fits_blanks (rest : List Char) : (blanks rest).Fits rest :=
  ⟨(List.takeWhile_prefix isBlank).length_le, fun _ _ h => by cases h⟩

theorem fits_word (c : Char) (rest : List Char) : (word c rest).Fits rest :=
  ⟨(List.takeWhile_prefix continuesWord).length_le, fun _ _ h => by cases h⟩

theorem fits_number (c : Char) (rest : List Char) : (number (c :: rest)).Fits rest := by
  have happend := congrArg List.length (readNumber_append (c :: rest))
  rw [List.length_append, List.length_cons] at happend
  constructor
  case more_le =>
    rw [more_number]
    omega
  case offset_le =>
    intro fault offset h
    simp only [number] at h
    split at h
    · cases h
    · rename_i heq
      obtain ⟨rfl, rfl⟩ := Meaning.fault.inj h
      have := Number.offset_le_of_outcome heq
      omega

theorem fits_string (rest : List Char) : (string rest).Fits rest := by
  unfold string
  split
  · rename_i hclosed
    exact ⟨(readString_taken hclosed).2, fun _ _ h => by cases h⟩
  · rename_i hbad
    refine ⟨Nat.le_refl _, fun _ _ h => ?_⟩
    obtain ⟨-, rfl⟩ := Meaning.fault.inj h
    have := lt_length_of_badEscape hbad
    omega
  · exact ⟨Nat.le_refl _, fun _ _ h => by cases h; omega⟩

theorem fits_character (rest : List Char) : (character rest).Fits rest := by
  unfold character
  split
  · rename_i hvalue
    obtain ⟨inside, behind, rfl, rfl, -⟩ := exists_of_readCharacter hvalue
    refine ⟨?_, fun _ _ h => by cases h⟩
    simp only [List.length_append, List.length_cons]
    omega
  · rename_i hfault
    refine ⟨Nat.zero_le _, fun _ _ h => ?_⟩
    obtain ⟨rfl, rfl⟩ := Meaning.fault.inj h
    exact offset_le_of_readCharacter hfault

theorem fits_slash (rest : List Char) : (slash rest).Fits rest := by
  unfold slash
  split
  · rename_i line
    have hline := (List.takeWhile_prefix (l := line) (· != '\n')).length_le
    exact ⟨Nat.succ_le_succ hline, fun _ _ h => by cases h⟩
  · split
    · rename_i hclose
      exact ⟨Nat.succ_le_succ (closeComment?_le hclose).2, fun _ _ h => by cases h⟩
    · exact ⟨Nat.le_refl _, fun _ _ h => by cases h; omega⟩
  · exact fits_sign _ _

/-- What stands at the head of a text lies in the text. -/
theorem fits_of (c : Char) (rest : List Char) : (of c rest).Fits rest := by
  unfold of
  split
  · exact fits_word c rest
  · split
    · exact fits_number c rest
    · split
      · exact fits_blanks rest
      · split
        case h_2 => exact fits_string rest
        case h_3 => exact fits_character rest
        case h_4 =>
          split
          · exact fits_number _ rest
          · exact fits_sign _ rest
        case h_5 => exact fits_slash rest
        case h_6 => exact fits_bang rest
        case h_7 => exact fits_signOrEquals _ _ rest
        case h_8 => exact fits_signOrEquals _ _ rest
        case h_9 => exact fits_signOrEquals _ _ rest
        case h_22 => exact ⟨Nat.zero_le _, fun _ _ h => by cases h; omega⟩
        all_goals exact fits_sign _ rest

end Lexeme

end Lexer

/-! ## Boundaries -/

/-- A boundary of a text is the end of some of its first characters. -/
theorem exists_of_mem_boundariesFrom {text : List Char} {i o : Nat}
    (h : o ∈ boundariesFrom i text) : ∃ a b, text = a ++ b ∧ o = i + utf8Len a := by
  induction text generalizing i with
  | nil =>
      obtain rfl := List.mem_singleton.1 h
      exact ⟨[], [], rfl, rfl⟩
  | cons c text ih =>
      rcases List.mem_cons.1 h with rfl | h
      · exact ⟨[], c :: text, rfl, rfl⟩
      · obtain ⟨a, b, rfl, rfl⟩ := ih h
        exact ⟨c :: a, b, rfl, by rw [String.utf8Len_cons]; omega⟩

namespace Source

variable {s : Source} {o o' : Nat} {c next : Cursor}

theorem mem_boundaries_iff :
    o ∈ s.boundaries ↔ ∃ a b, s.chars = a ++ b ∧ o = utf8Len a := by
  constructor
  · intro h
    obtain ⟨a, b, hs, ho⟩ := exists_of_mem_boundariesFrom h
    exact ⟨a, b, hs, by rw [ho, Nat.zero_add]⟩
  · rintro ⟨a, b, hs, rfl⟩
    exact utf8Len_mem_boundaries hs

/-- The end of a text is its last boundary. -/
theorem le_byteSize_of_mem_boundaries (h : o ∈ s.boundaries) : o ≤ s.byteSize := by
  obtain ⟨a, b, hs, rfl⟩ := mem_boundaries_iff.1 h
  rw [byteSize, ← String.utf8Len_toList, ← chars, hs, String.utf8Len_append]
  exact Nat.le_add_right _ _

theorem byteSize_mem_boundaries (s : Source) : s.byteSize ∈ s.boundaries :=
  mem_boundaries_iff.2 ⟨s.chars, [], (List.append_nil _).symm, (String.utf8Len_toList s.text).symm⟩

theorem positionAt_byteSize (s : Source) : s.positionAt s.byteSize = s.endPosition := by
  rw [byteSize, ← String.utf8Len_toList]
  exact positionAt_utf8Len (List.append_nil _).symm

/-- Of two boundaries the one that lies behind the other has the later place. -/
theorem positionAt_lt_positionAt (ho : o ∈ s.boundaries) (ho' : o' ∈ s.boundaries) (h : o < o') :
    s.positionAt o < s.positionAt o' := by
  obtain ⟨a, b, hs, rfl⟩ := mem_boundaries_iff.1 ho
  obtain ⟨a', b', hs', rfl⟩ := mem_boundaries_iff.1 ho'
  rw [positionAt_utf8Len hs, positionAt_utf8Len hs']
  -- One of the two pieces of text begins with the other one.
  rcases List.append_eq_append_iff.1 (hs.symm.trans hs') with ⟨more, rfl, -⟩ | ⟨more, rfl, -⟩
  · rw [Position.after_append]
    refine Position.lt_after _ fun hnil => ?_
    rw [hnil, List.append_nil] at h
    exact Nat.lt_irrefl _ h
  · rw [String.utf8Len_append] at h
    omega

theorem positionAt_le_positionAt (ho : o ∈ s.boundaries) (ho' : o' ∈ s.boundaries) (h : o ≤ o') :
    s.positionAt o ≤ s.positionAt o' := by
  rcases Nat.lt_or_eq_of_le h with hlt | rfl
  · exact (positionAt_lt_positionAt ho ho' hlt).le
  · exact Position.le_refl _

/-- The place of every boundary lies between the beginning and the end of the text. -/
theorem positionAt_bounds (ho : o ∈ s.boundaries) :
    .first ≤ s.positionAt o ∧ s.positionAt o ≤ s.endPosition := by
  constructor
  · obtain ⟨a, b, hs, rfl⟩ := mem_boundaries_iff.1 ho
    rw [positionAt_utf8Len hs]
    exact Position.le_after _ a
  · rw [← positionAt_byteSize]
    exact positionAt_le_positionAt ho s.byteSize_mem_boundaries (le_byteSize_of_mem_boundaries ho)

/-! ## Cursors in a source -/

/-- Whether a cursor stands in a source at a byte offset: the text behind the offset is still to come,
and the cursor tells the place of the offset. -/
def StandsAt (s : Source) (c : Cursor) (o : Nat) : Prop :=
  ∃ before, s.chars = before ++ c.rest ∧ o = utf8Len before ∧
    c.position = Position.first.after before

/-- Whether a lexeme leads from one cursor in a source to another one. It takes at least one
character, and begins and ends between characters of the text. No more characters are taken than there
are, and a fault lies no further away. -/
structure Takes (s : Source) (c next : Cursor) : Prop where
  lexeme : ∃ l, c.lexeme? = some l ∧ next = c.pass l ∧ l.more + 1 ≤ c.rest.length ∧
    ∀ fault offset, l.meaning = .fault fault offset → offset ≤ c.rest.length
  bounds : ∃ start stop, s.StandsAt c start ∧ s.StandsAt next stop ∧
    start ∈ s.boundaries ∧ stop ∈ s.boundaries ∧ start < stop ∧ stop ≤ s.byteSize

namespace StandsAt

theorem mem_boundaries (h : s.StandsAt c o) : o ∈ s.boundaries := by
  obtain ⟨before, hs, ho, -⟩ := h
  exact mem_boundaries_iff.2 ⟨before, c.rest, hs, ho⟩

theorem position_eq (h : s.StandsAt c o) : c.position = s.positionAt o := by
  obtain ⟨before, hs, rfl, hposition⟩ := h
  rw [hposition, positionAt_utf8Len hs]

theorem cursor (s : Source) : s.StandsAt s.cursor 0 := ⟨[], rfl, rfl, rfl⟩

theorem endPosition_eq (h : s.StandsAt c o) : c.endPosition = s.endPosition := by
  obtain ⟨before, hs, -, hposition⟩ := h
  rw [Cursor.endPosition, hposition, ← Position.after_append, ← hs, endPosition]

/-- Passing characters leads to where these are over. -/
theorem skip (h : s.StandsAt c o) (n : Nat) :
    s.StandsAt (c.skip n) (o + utf8Len (c.rest.take n)) := by
  obtain ⟨before, hs, rfl, hposition⟩ := h
  refine ⟨before ++ c.rest.take n, ?_, ?_, ?_⟩
  · rw [List.append_assoc, c.take_append_skip, hs]
  · rw [String.utf8Len_append]
  · rw [Position.after_append, ← hposition, Cursor.skip]

/-- The lexeme under a cursor leads further. -/
theorem takes_pass {l : Lexeme} (h : s.StandsAt c o) (hl : c.lexeme? = some l) :
    s.Takes c (c.pass l) ∧ ∃ o', s.StandsAt (c.pass l) o' ∧ o < o' := by
  obtain ⟨p, rest⟩ := c
  obtain ⟨head, rest, rfl, rfl⟩ := Cursor.exists_of_lexeme? hl
  have hskip := h.skip ((Lexeme.of head rest).more + 1)
  have hlt : o < o + utf8Len ((head :: rest).take ((Lexeme.of head rest).more + 1)) := by
    rw [List.take_succ_cons, String.utf8Len_cons]
    have := head.utf8Size_pos
    omega
  have hfits := Lexeme.fits_of head rest
  exact ⟨⟨⟨_, hl, rfl, Nat.succ_le_succ hfits.more_le, hfits.offset_le⟩, _, _, h, hskip,
    h.mem_boundaries, hskip.mem_boundaries, hlt,
    le_byteSize_of_mem_boundaries hskip.mem_boundaries⟩, _, hskip, hlt⟩

/-- Reading a token leads on lexeme by lexeme. What is read is the end of the file, at the end of the
text, or a token between two boundaries, or a fault at one. All of them stand behind what was read
before. -/
theorem pull (h : s.StandsAt c o) :
    Relation.ReflTransGen s.Takes c c.pull.2 ∧ ∃ o', s.StandsAt c.pull.2 o' ∧ o ≤ o' ∧
      match c.pull.1 with
      | .ok t => t = .endOfFile s.endPosition ∧ c.pull.2.rest = [] ∨
          t.isEndOfFile = false ∧ ∃ start, start ∈ s.boundaries ∧ o ≤ start ∧ start < o' ∧
            t.span = s.span start o'
      | .error d => ∃ fault place, place ∈ s.boundaries ∧ o ≤ place ∧
          d = .lexical fault (s.positionAt place) := by
  fun_induction Cursor.pull c generalizing o with
  | case1 c hl =>
      refine ⟨.refl, o, h, Nat.le_refl o, .inl ⟨?_, Cursor.rest_eq_nil_of_lexeme? hl⟩⟩
      rw [← h.endPosition_eq, Cursor.endPosition, Cursor.rest_eq_nil_of_lexeme? hl]
      rfl
  | case2 c l hl k hk =>
      obtain ⟨htakes, o', hpass, hlt⟩ := h.takes_pass hl
      obtain ⟨head, rest, -, rfl⟩ := Cursor.exists_of_lexeme? hl
      refine ⟨.single htakes, o', hpass, hlt.le, .inr ⟨Lexeme.isEndOfFile_of_token hk, o,
        h.mem_boundaries, Nat.le_refl o, hlt, ?_⟩⟩
      rw [h.position_eq, hpass.position_eq]
      rfl
  | case3 c l hl _ ih =>
      obtain ⟨htakes, o₁, hpass, hlt⟩ := h.takes_pass hl
      obtain ⟨hpath, o', hnext, hle, hread⟩ := ih hpass
      refine ⟨.head htakes hpath, o', hnext, hlt.le.trans hle, ?_⟩
      split at hread
      · refine hread.imp_right ?_
        rintro ⟨ht, start, hstart, hle', hlt', hspan⟩
        exact ⟨ht, start, hstart, hlt.le.trans hle', hlt', hspan⟩
      · obtain ⟨fault, place, hplace, hle', hd⟩ := hread
        exact ⟨fault, place, hplace, hlt.le.trans hle', hd⟩
  | case4 c l hl fault offset _ =>
      obtain ⟨htakes, o', hpass, hlt⟩ := h.takes_pass hl
      have hplace := h.skip offset
      exact ⟨.single htakes, o', hpass, hlt.le, fault, _, hplace.mem_boundaries,
        Nat.le_add_right _ _, by rw [hplace.position_eq]⟩

end StandsAt

end Source

end Bucket
