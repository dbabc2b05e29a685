/-
# A reader's place in a text

A cursor holds the characters that are still to come and the position of the first of them. It
moves forward one character at a time and stays where it is at the end of the text.
-/
import Bucket.Source.Position

namespace Bucket

/-- The rest of a text, with the position where that rest begins. -/
structure Cursor where
  position : Position
  rest : List Char
  deriving DecidableEq

namespace Cursor

/-- A cursor at the beginning of a text. -/
def ofChars (text : List Char) : Cursor := ⟨.first, text⟩

/-- The character under the cursor, if there is one left. -/
def current (c : Cursor) : Option Char := c.rest.head?

/-- Moves past the character under the cursor, if there is one left. -/
def next : Cursor → Cursor
  | ⟨p, []⟩ => ⟨p, []⟩
  | ⟨p, c :: rest⟩ => ⟨p.advance c, rest⟩

/-- The character under the cursor stands in front of what is left behind it. -/
theorem rest_of_current {c : Cursor} {ch : Char} (h : c.current = some ch) :
    c.rest = ch :: c.next.rest := by
  obtain ⟨p, rest⟩ := c
  obtain ⟨rest, rfl⟩ := List.head?_eq_some_iff.1 h
  rfl

/-- Where there is no character under the cursor nothing is left. -/
theorem rest_of_current_eq_none {c : Cursor} (h : c.current = none) : c.rest = [] :=
  List.head?_eq_none_iff.1 h

/-- Moves past `n` characters, or to the end of the text when fewer are left. -/
def skip (n : Nat) (c : Cursor) : Cursor :=
  ⟨c.position.after (c.rest.take n), c.rest.drop n⟩

@[simp] theorem skip_zero (c : Cursor) : c.skip 0 = c := by
  simp [skip]

/-- Passing one character more is one move at the start. -/
theorem skip_succ (n : Nat) (c : Cursor) : c.skip (n + 1) = c.next.skip n := by
  cases c with
  | mk p rest => cases rest <;> simp [skip, next]

/-- Passing as many characters as a piece of text has leads behind it. -/
theorem skip_length (p : Position) (a b : List Char) :
    (mk p (a ++ b)).skip a.length = ⟨p.after a, b⟩ := by
  rw [skip, List.take_left, List.drop_left]

/-- What is passed and what is left are the text that was there. -/
theorem take_append_skip (n : Nat) (c : Cursor) : c.rest.take n ++ (c.skip n).rest = c.rest :=
  List.take_append_drop n c.rest

/-- Passing characters leaves that many fewer. -/
theorem length_skip (n : Nat) (c : Cursor) : (c.skip n).rest.length = c.rest.length - n :=
  List.length_drop

/-- The place where the text of a cursor ends. -/
def endPosition (c : Cursor) : Position := c.position.after c.rest

/-- Moving along a text does not change where it ends. -/
theorem endPosition_skip (n : Nat) (c : Cursor) : (c.skip n).endPosition = c.endPosition := by
  simp only [endPosition, skip, ← Position.after_append, List.take_append_drop]

/-- The cursor at every character of the text in turn. -/
def stops : Position → List Char → List (Char × Position)
  | _, [] => []
  | p, c :: rest => (c, p) :: stops (p.advance c) rest

/-- The characters still to come, each with its position. -/
def drain (c : Cursor) : List (Char × Position) := stops c.position c.rest

/-- Draining a cursor gives each character left, once and in order. -/
theorem map_fst_drain (c : Cursor) : c.drain.map Prod.fst = c.rest := by
  have h : ∀ (text : List Char) (p : Position), (stops p text).map Prod.fst = text := by
    intro text
    induction text with
    | nil => intro p; rfl
    | cons c rest ih => intro p; simp [stops, ih]
  exact h c.rest c.position

end Cursor

end Bucket
