/-
# Positions and spans

Places in a source text. A position is a line and a column, both counted from one, and a span is
the stretch between two positions. The main facts are that reading characters moves a position
one piece of text after the other (`Position.after_append`) and that spans are joined by their
outermost ends.
-/

namespace Bucket

/-! ## Positions -/

/-- A place in a source text. Lines and columns count from one, and columns count characters. -/
structure Position where
  line : Nat
  column : Nat
  deriving DecidableEq

namespace Position

/-- The place where every text begins. -/
def first : Position := ⟨1, 1⟩

instance : Inhabited Position := ⟨first⟩

/-- Positions are ordered by line, and by column within a line. -/
instance : LE Position where
  le p q := p.line < q.line ∨ p.line = q.line ∧ p.column ≤ q.column

theorem le_def {p q : Position} :
    p ≤ q ↔ p.line < q.line ∨ p.line = q.line ∧ p.column ≤ q.column := Iff.rfl

instance (p q : Position) : Decidable (p ≤ q) :=
  inferInstanceAs (Decidable (p.line < q.line ∨ p.line = q.line ∧ p.column ≤ q.column))

instance : Ord Position where
  compare p q := (compare p.line q.line).then (compare p.column q.column)

instance : Min Position := minOfLe

instance : Max Position := maxOfLe

/-- Every position is at or before itself. -/
theorem le_refl (p : Position) : p ≤ p := by
  rw [le_def]; omega

/-- Of two positions one is at or before the other. -/
theorem le_total (p q : Position) : p ≤ q ∨ q ≤ p := by
  rw [le_def, le_def]; omega

/-- The order of positions is transitive. -/
theorem le_trans {p q r : Position} (h : p ≤ q) (h' : q ≤ r) : p ≤ r := by
  rw [le_def] at *; omega

/-- Positions at or before each other are the same. -/
theorem le_antisymm {p q : Position} (h : p ≤ q) (h' : q ≤ p) : p = q := by
  obtain ⟨line, column⟩ := p
  obtain ⟨line', column'⟩ := q
  rw [le_def] at h h'
  simp only [mk.injEq] at *
  omega

/-! ## Reading characters -/

/-- The place after a character: a line feed opens the next line, any other character takes one
column. -/
def advance (p : Position) (c : Char) : Position :=
  if c = '\n' then ⟨p.line + 1, 1⟩ else ⟨p.line, p.column + 1⟩

/-- The place after a piece of text that begins at `p`. -/
def after (p : Position) (text : List Char) : Position :=
  text.foldl advance p

@[simp] theorem after_nil (p : Position) : p.after [] = p := rfl

@[simp] theorem after_cons (p : Position) (c : Char) (text : List Char) :
    p.after (c :: text) = (p.advance c).after text := rfl

/-- Two pieces of text are passed one after the other. -/
theorem after_append (p : Position) (a b : List Char) :
    p.after (a ++ b) = (p.after a).after b :=
  List.foldl_append

/-- How a position is written in a message. -/
def display (p : Position) : String :=
  "line " ++ toString p.line ++ ", column " ++ toString p.column

end Position

/-! ## Spans -/

/-- A stretch of text from `start` up to, but not including, `stop`. -/
structure Span where
  start : Position
  stop : Position
  deriving DecidableEq

namespace Span

/-- The empty span at a position. -/
def point (p : Position) : Span := ⟨p, p⟩

/-- The empty span at the beginning of a text. -/
def first : Span := point .first

instance : Inhabited Span := ⟨first⟩

/-- The smallest stretch that holds two spans. -/
instance : Add Span where
  add a b := ⟨min a.start b.start, max a.stop b.stop⟩

theorem add_def (a b : Span) : a + b = ⟨min a.start b.start, max a.stop b.stop⟩ := rfl

/-- A span joined to itself is itself. -/
@[simp] theorem add_self (a : Span) : a + a = a := by
  simp [add_def, Min.min, Max.max]

end Span

end Bucket
