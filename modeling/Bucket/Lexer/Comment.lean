/-
# Block comments

A block comment ends where as many comments were closed as were opened. The text is taken from left
to right, and no character belongs to two delimiters.
-/

namespace Bucket.Lexer

/-- How many characters there are up to and with the end of a block comment, while `inner` comments
inside it are open. There is no such end when the text stops first. -/
def closeComment? (inner : Nat) : List Char → Option Nat
  | [] => none
  | [_] => none
  | a :: b :: rest =>
      if a = '*' ∧ b = '/' then
        match inner with
        | 0 => some 2
        | inner + 1 => (closeComment? inner rest).map (· + 2)
      else if a = '/' ∧ b = '*' then (closeComment? (inner + 1) rest).map (· + 2)
      else (closeComment? inner (b :: rest)).map (· + 1)

/-- A comment that ends does so inside the text. -/
theorem closeComment?_le {inner n : Nat} {text : List Char} (h : closeComment? inner text = some n) :
    0 < n ∧ n ≤ text.length := by
  fun_induction closeComment? inner text generalizing n with
  | case1 => simp at h
  | case2 => simp at h
  | case3 => simp at h; subst h; simp
  | case4 a b rest _ inner ih =>
      obtain ⟨m, hm, rfl⟩ := Option.map_eq_some_iff.1 h
      have := ih hm
      simp
      omega
  | case5 inner a b rest _ _ ih =>
      obtain ⟨m, hm, rfl⟩ := Option.map_eq_some_iff.1 h
      have := ih hm
      simp
      omega
  | case6 inner a b rest _ _ ih =>
      obtain ⟨m, hm, rfl⟩ := Option.map_eq_some_iff.1 h
      have := ih hm
      simp at this ⊢
      omega

end Bucket.Lexer
