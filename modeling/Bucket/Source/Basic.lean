/-
# Source texts

A source is a named text. Places in it are found in two ways: by reading it from the start with a
cursor, or from a byte offset into its UTF-8 form with an index of its lines.
-/
import Bucket.Source.Cursor

namespace Bucket

/-! ## Byte offsets -/

/-- The byte offset of each character of a text that begins at offset `o`, and of its end. -/
def boundariesFrom (o : Nat) : List Char → List Nat
  | [] => [o]
  | c :: rest => o :: boundariesFrom (o + c.utf8Size) rest

/-- The byte offset just past each line feed of a text that begins at offset `o`. -/
def linesFrom (o : Nat) : List Char → List Nat
  | [] => []
  | c :: rest =>
      if c = '\n' then (o + c.utf8Size) :: linesFrom (o + c.utf8Size) rest
      else linesFrom (o + c.utf8Size) rest

/-! ## Sources -/

/-- A text with a name. -/
structure Source where
  name : String
  text : String
  deriving DecidableEq

namespace Source

/-- The mark that may stand before a text to give its byte order. -/
def byteOrderMark : Char := '\ufeff'

/-- Drops one byte order mark from the start of a text. -/
def dropByteOrderMark : List Char → List Char
  | [] => []
  | c :: rest => if c = byteOrderMark then rest else c :: rest

/-- The source of a text, without the byte order mark that it may begin with. -/
def ofText (name text : String) : Source :=
  ⟨name, String.ofList (dropByteOrderMark text.toList)⟩

/-- The characters of a source. -/
def chars (s : Source) : List Char := s.text.toList

/-- A cursor at the beginning of a source. -/
def cursor (s : Source) : Cursor := .ofChars s.chars

/-- The place just past the last character. -/
def endPosition (s : Source) : Position := Position.first.after s.chars

/-- The number of bytes of the text. -/
def byteSize (s : Source) : Nat := s.text.utf8ByteSize

/-- The byte offsets between characters, those of both ends included. -/
def boundaries (s : Source) : List Nat := boundariesFrom 0 s.chars

/-- The byte offset where each line begins. -/
def lineStarts (s : Source) : List Nat := 0 :: linesFrom 0 s.chars

/-- The place of a byte offset, where an offset past the end stands for the end. Its line is the
last one that begins at or before it, and each boundary between characters that is passed on that
line takes one column. -/
def positionAt (s : Source) (offset : Nat) : Position :=
  let o := min offset s.byteSize
  let starts := s.lineStarts.filter (· ≤ o)
  let start := starts.getLastD 0
  ⟨starts.length, 1 + (s.boundaries.filter fun b => start < b && b ≤ o).length⟩

/-- The stretch between two byte offsets. -/
def span (s : Source) (start stop : Nat) : Span := ⟨s.positionAt start, s.positionAt stop⟩

end Source

end Bucket
