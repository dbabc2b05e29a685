/-
# First bytes

In UTF-8 the first byte of a character tells how many bytes it has and gives its highest bits.
Characters with the same first byte therefore are neighbours.
-/

namespace Bucket.Unicode

/-- How many code points share their first byte with `n`. -/
def firstByteWidth (n : Nat) : Nat :=
  if n < 0x80 then 1 else if n < 0x800 then 0x40 else if n < 0x10000 then 0x1000 else 0x40000

/-- The first code point whose form has as many bytes as that of `n`. -/
def formStart (n : Nat) : Nat :=
  if n < 0x80 then 0 else if n < 0x800 then 0x80 else if n < 0x10000 then 0x800 else 0x10000

/-- The stretch of code points with the same first byte as `n`: where it begins, and where it has
ended. -/
def firstByteBlock (n : Nat) : Nat × Nat :=
  let start := n / firstByteWidth n * firstByteWidth n
  (max (formStart n) start, start + firstByteWidth n)

/-- Every code point lies in the stretch that it gives. -/
theorem mem_firstByteBlock (n : Nat) : (firstByteBlock n).1 ≤ n ∧ n < (firstByteBlock n).2 := by
  simp only [firstByteBlock, firstByteWidth, formStart]
  split
  · simp
  · split
    · omega
    · split <;> omega

end Bucket.Unicode
