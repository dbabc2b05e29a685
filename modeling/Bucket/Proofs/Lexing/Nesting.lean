/-
# Block comments close by nesting

The text of a block comment is split from left to right into delimiters and other characters
(`Lexer.commentParts`). The comment is closed by the first part behind which one more comment was closed
than opened in it, and it is not closed where there is none (`Lexer.closeComment?_eq_some_iff`). Up to
there at least one comment is open in front of each part (`Lexer.exists_inner_of_parts`), and what a
cursor passes is told by this split (`Cursor.pull_comment`).
-/
import Bucket.Proofs.Lexing.Tokens

namespace Bucket

namespace Lexer

/-! ## Parts of a comment -/

/-- A part of the text of a block comment: one of the two delimiters, or another character. -/
inductive CommentPart where
  | opening
  | closing
  | other (c : Char)
  deriving DecidableEq

namespace CommentPart

/-- The characters of a part. -/
def chars : CommentPart → List Char
  | opening => ['/', '*']
  | closing => ['*', '/']
  | other c => [c]

/-- How many comments are open inside another one behind a part, when there were `inner` in front of it.
There is no such number when the part closes the outer one. -/
def innerBehind? (inner : Nat) : CommentPart → Option Nat
  | opening => some (inner + 1)
  | closing => match inner with
      | 0 => none
      | inner + 1 => some inner
  | other _ => some inner

end CommentPart

/-- The parts of a text from left to right. No character belongs to two delimiters. -/
def commentParts : List Char → List CommentPart
  | [] => []
  | [c] => [.other c]
  | a :: b :: rest =>
      if a = '*' ∧ b = '/' then .closing :: commentParts rest
      else if a = '/' ∧ b = '*' then .opening :: commentParts rest
      else .other a :: commentParts (b :: rest)

/-- The text of some parts. -/
def textOfParts (ps : List CommentPart) : List Char := ps.flatMap CommentPart.chars

theorem textOfParts_cons (part : CommentPart) (ps : List CommentPart) :
    textOfParts (part :: ps) = part.chars ++ textOfParts ps := List.flatMap_cons

theorem textOfParts_append (ps qs : List CommentPart) :
    textOfParts (ps ++ qs) = textOfParts ps ++ textOfParts qs := List.flatMap_append

/-- The parts of a text make it up. -/
theorem textOfParts_parts (text : List Char) : textOfParts (commentParts text) = text := by
  fun_induction commentParts text with
  | case1 => rfl
  | case2 c => rfl
  | case3 a b rest hclose ih =>
      obtain ⟨rfl, rfl⟩ := hclose
      rw [textOfParts_cons, ih]
      rfl
  | case4 a b rest _ hopen ih =>
      obtain ⟨rfl, rfl⟩ := hopen
      rw [textOfParts_cons, ih]
      rfl
  | case5 a b rest _ _ ih =>
      rw [textOfParts_cons, ih]
      rfl

/-- One part of a comment is passed, and then the comment goes on with as many open in it as there are
behind the part. The part that closes the outer one is the last. -/
theorem closeComment?_of_parts {text : List Char} {part : CommentPart} {ps : List CommentPart}
    (h : commentParts text = part :: ps) :
    ∃ behind, text = part.chars ++ behind ∧ commentParts behind = ps ∧
      ∀ inner, closeComment? inner text = match part.innerBehind? inner with
        | none => some part.chars.length
        | some inner' => (closeComment? inner' behind).map (· + part.chars.length) := by
  unfold commentParts at h
  split at h
  · cases h
  · obtain ⟨rfl, rfl⟩ := List.cons.inj h
    exact ⟨[], rfl, rfl, fun inner => rfl⟩
  · rename_i a b rest
    split at h
    · rename_i hclose
      obtain ⟨rfl, rfl⟩ := hclose
      obtain ⟨rfl, rfl⟩ := List.cons.inj h
      refine ⟨rest, rfl, rfl, fun inner => ?_⟩
      cases inner <;> simp [closeComment?, CommentPart.innerBehind?, CommentPart.chars]
    · rename_i hclose
      split at h
      · rename_i hopen
        obtain ⟨rfl, rfl⟩ := hopen
        obtain ⟨rfl, rfl⟩ := List.cons.inj h
        refine ⟨rest, rfl, rfl, fun inner => ?_⟩
        cases inner <;> simp [closeComment?, CommentPart.innerBehind?, CommentPart.chars]
      · rename_i hopen
        obtain ⟨rfl, rfl⟩ := List.cons.inj h
        refine ⟨b :: rest, rfl, rfl, fun inner => ?_⟩
        cases inner <;> rw [closeComment?, if_neg hclose, if_neg hopen] <;> rfl

/-! ## Where a comment is closed -/

/-- Whether some parts close a comment in which `inner` others are open: there are as many closing
delimiters among them as close all of these and what is opened. -/
def ClosesComment (inner : Nat) (front : List CommentPart) : Prop :=
  front.count .closing = front.count .opening + inner + 1

theorem not_closesComment_nil (inner : Nat) : ¬ ClosesComment inner [] := by
  simp [ClosesComment]

theorem closesComment_closing : ClosesComment 0 [.closing] := by
  simp [ClosesComment]

/-- The number of comments that are open counts the delimiters. -/
theorem count_cons_of_innerBehind? {part : CommentPart} {inner inner' : Nat}
    (h : part.innerBehind? inner = some inner') (ps : List CommentPart) :
    (part :: ps).count .opening + inner + ps.count .closing =
      (part :: ps).count .closing + inner' + ps.count .opening := by
  cases part with
  | opening =>
      obtain rfl := Option.some.inj h
      simp only [List.count_cons, beq_iff_eq, reduceCtorEq, if_false, if_true]
      omega
  | closing =>
      cases inner with
      | zero => cases h
      | succ inner =>
          obtain rfl := Option.some.inj h
          simp only [List.count_cons, beq_iff_eq, reduceCtorEq, if_false, if_true]
          omega
  | other c =>
      obtain rfl := Option.some.inj h
      simp only [List.count_cons, beq_iff_eq, reduceCtorEq, if_false]
      omega

/-- Only a closing delimiter closes the outer comment, and only where no other one is open in it. -/
theorem eq_closing_of_innerBehind? {part : CommentPart} {inner : Nat}
    (h : part.innerBehind? inner = none) : part = .closing ∧ inner = 0 := by
  cases part with
  | opening => cases h
  | closing =>
      cases inner with
      | zero => exact ⟨rfl, rfl⟩
      | succ inner => cases h
  | other c => cases h

/-- A part that does not close the outer comment is passed. -/
theorem closesComment_cons {part : CommentPart} {inner inner' : Nat} {front : List CommentPart}
    (h : part.innerBehind? inner = some inner') :
    ClosesComment inner (part :: front) ↔ ClosesComment inner' front := by
  have hcount := count_cons_of_innerBehind? h front
  rw [ClosesComment, ClosesComment]
  omega

/-- Whether some parts are the fewest at the beginning of others that close a comment. -/
structure FirstClosing (inner : Nat) (front ps : List CommentPart) : Prop where
  here : front <+: ps
  closes : ClosesComment inner front
  fewest : ∀ front', front' <+: ps → ClosesComment inner front' → front.length ≤ front'.length

/-- Where some parts close a comment there are the fewest that do. -/
theorem exists_firstClosing {inner : Nat} {front ps : List CommentPart} (h : front <+: ps)
    (hcloses : ClosesComment inner front) : ∃ front', FirstClosing inner front' ps := by
  induction hn : front.length using Nat.strong_induction_on generalizing front with
  | _ n ih =>
    subst hn
    by_cases hfewer : ∃ front', front' <+: ps ∧ ClosesComment inner front' ∧
        front'.length < front.length
    · obtain ⟨front', hfront', hcloses', hlt⟩ := hfewer
      exact ih _ hlt hfront' hcloses' rfl
    · refine ⟨front, h, hcloses, ?_⟩
      intro front' hfront' hcloses'
      apply Nat.le_of_not_lt
      intro hlt
      exact hfewer ⟨front', hfront', hcloses', hlt⟩

/-- A delimiter that closes the outer comment closes it at once. -/
theorem firstClosing_closing_iff {front ps : List CommentPart} :
    FirstClosing 0 front (.closing :: ps) ↔ front = [.closing] := by
  constructor
  · intro h
    rcases front with _ | ⟨part, front⟩
    · exact absurd h.closes (not_closesComment_nil 0)
    · obtain ⟨rfl, -⟩ := List.cons_prefix_cons.1 h.here
      have hlength := h.fewest [.closing] (List.prefix_append [.closing] ps) closesComment_closing
      rw [List.length_cons, List.length_singleton] at hlength
      rw [List.length_eq_zero_iff.1 (by omega : front.length = 0)]
  · rintro rfl
    refine ⟨List.prefix_append [.closing] ps, closesComment_closing, ?_⟩
    intro front' _ hcloses
    rcases front' with _ | ⟨part, front'⟩
    · exact absurd hcloses (not_closesComment_nil 0)
    · simp

/-- Any other part is passed. -/
theorem firstClosing_cons_iff {part : CommentPart} {inner inner' : Nat} {front ps : List CommentPart}
    (h : part.innerBehind? inner = some inner') :
    FirstClosing inner front (part :: ps) ↔
      ∃ front', front = part :: front' ∧ FirstClosing inner' front' ps := by
  constructor
  · intro hfirst
    rcases front with _ | ⟨part', front⟩
    · exact absurd hfirst.closes (not_closesComment_nil inner)
    · obtain ⟨rfl, hhere⟩ := List.cons_prefix_cons.1 hfirst.here
      refine ⟨front, rfl, hhere, (closesComment_cons h).1 hfirst.closes, ?_⟩
      intro front' hfront' hcloses
      have hlength := hfirst.fewest (part' :: front') (List.cons_prefix_cons.2 ⟨rfl, hfront'⟩)
        ((closesComment_cons h).2 hcloses)
      rw [List.length_cons, List.length_cons] at hlength
      omega
  · rintro ⟨front, rfl, hfirst⟩
    refine ⟨List.cons_prefix_cons.2 ⟨rfl, hfirst.here⟩, (closesComment_cons h).2 hfirst.closes, ?_⟩
    intro front' hfront' hcloses
    rcases front' with _ | ⟨part', front'⟩
    · exact absurd hcloses (not_closesComment_nil inner)
    · obtain ⟨rfl, hhere⟩ := List.cons_prefix_cons.1 hfront'
      have hlength := hfirst.fewest front' hhere ((closesComment_cons h).1 hcloses)
      rw [List.length_cons, List.length_cons]
      omega

/-- A comment is closed exactly where some of the parts close it, and by the fewest of these. -/
theorem closeComment?_eq_some_iff {inner n : Nat} {text : List Char} :
    closeComment? inner text = some n ↔
      ∃ front, FirstClosing inner front (commentParts text) ∧ n = (textOfParts front).length := by
  induction hps : commentParts text generalizing inner n text with
  | nil =>
      have htext : text = [] := by rw [← textOfParts_parts text, hps]; rfl
      subst htext
      constructor
      · intro h
        cases h
      · rintro ⟨front, hfirst, -⟩
        rw [List.prefix_nil.1 hfirst.here] at hfirst
        exact absurd hfirst.closes (not_closesComment_nil inner)
  | cons part ps ih =>
      obtain ⟨behind, rfl, hbehind, hclose⟩ := closeComment?_of_parts hps
      rw [hclose]
      cases hinner : part.innerBehind? inner with
      | none =>
          obtain ⟨rfl, rfl⟩ := eq_closing_of_innerBehind? hinner
          constructor
          · intro h
            exact ⟨[.closing], firstClosing_closing_iff.2 rfl, (Option.some.inj h).symm⟩
          · rintro ⟨front, hfirst, rfl⟩
            rw [firstClosing_closing_iff.1 hfirst]
            rfl
      | some inner' =>
          simp only [Option.map_eq_some_iff, ih hbehind, firstClosing_cons_iff hinner]
          constructor
          · rintro ⟨m, ⟨front, hfirst, rfl⟩, rfl⟩
            refine ⟨part :: front, ⟨front, rfl, hfirst⟩, ?_⟩
            rw [textOfParts_cons, List.length_append, Nat.add_comm]
          · rintro ⟨front, ⟨front, rfl, hfirst⟩, rfl⟩
            refine ⟨_, ⟨front, hfirst, rfl⟩, ?_⟩
            rw [textOfParts_cons, List.length_append, Nat.add_comm]

/-- As long as the parts that were passed do not close the comment, as many others are open in it as
were opened and not closed. -/
theorem exists_inner_of_parts {inner : Nat} {text : List Char} {before behind : List CommentPart}
    (h : commentParts text = before ++ behind)
    (hopen : ∀ front, front <+: before → ¬ ClosesComment inner front) :
    ∃ inner', before.count .opening + inner = before.count .closing + inner' ∧
      closeComment? inner text =
        (closeComment? inner' (textOfParts behind)).map (· + (textOfParts before).length) := by
  induction before generalizing inner text with
  | nil =>
      have htext := textOfParts_parts text
      rw [h, List.nil_append] at htext
      refine ⟨inner, rfl, ?_⟩
      rw [htext]
      exact Option.map_id'.symm
  | cons part before ih =>
      obtain ⟨rest, rfl, hrest, hclose⟩ := closeComment?_of_parts h
      have hnotclosed := hopen [part] (List.prefix_append [part] before)
      cases hinner : part.innerBehind? inner with
      | none =>
          obtain ⟨rfl, rfl⟩ := eq_closing_of_innerBehind? hinner
          exact absurd closesComment_closing hnotclosed
      | some inner' =>
          obtain ⟨inner'', hcount, hscan⟩ := ih hrest fun front hfront hcloses =>
            hopen (part :: front) (List.cons_prefix_cons.2 ⟨rfl, hfront⟩)
              ((closesComment_cons hinner).2 hcloses)
          refine ⟨inner'', ?_, ?_⟩
          · have hstep := count_cons_of_innerBehind? hinner before
            omega
          · rw [hclose, hinner]
            simp only [hscan, Option.map_map, textOfParts_cons, List.length_append]
            refine congrArg (Option.map · _) (funext fun n => ?_)
            simp only [Function.comp_apply]
            omega

/-! ## How deep comments nest -/

/-- How many block comments are open behind some parts of the text of one, that one included. -/
def depth (ps : List CommentPart) : Int := 1 + ps.count .opening - ps.count .closing

/-- As long as the parts that were passed do not close a comment, at least one is open, and the rest is
looked through with as many open in it as there are. -/
theorem depth_of_parts {inside : List Char} {before behind : List CommentPart}
    (h : commentParts inside = before ++ behind)
    (hopen : ∀ front, front <+: before → ¬ ClosesComment 0 front) :
    1 ≤ depth before ∧ closeComment? 0 inside =
      (closeComment? (depth before - 1).toNat (textOfParts behind)).map
        (· + (textOfParts before).length) := by
  obtain ⟨inner, hcount, hscan⟩ := exists_inner_of_parts h hopen
  have hdepth : depth before = inner + 1 := by
    rw [depth]
    omega
  have hinner : (depth before - 1).toNat = inner := by omega
  rw [hinner]
  exact ⟨by omega, hscan⟩

end Lexer

/-! ## What a cursor passes -/

open Lexer

namespace Cursor

variable {p : Position} {inside : List Char}

/-- What stands where a block comment begins. -/
theorem lexeme?_comment (p : Position) (inside : List Char) :
    lexeme? ⟨p, '/' :: '*' :: inside⟩ = some (match closeComment? 0 inside with
      | some n => ⟨.skipped, n + 1⟩
      | none => ⟨.fault .unclosedComment 0, inside.length + 1⟩) := rfl

/-- A block comment is passed up to where the fewest of its parts close it, if there are any. -/
theorem lexeme?_comment_eq_some_iff {l : Lexeme} :
    lexeme? ⟨p, '/' :: '*' :: inside⟩ = some l ↔
      (∃ front, FirstClosing 0 front (commentParts inside) ∧
          l = ⟨.skipped, (textOfParts front).length + 1⟩) ∨
        (∀ front, front <+: commentParts inside → ¬ ClosesComment 0 front) ∧
          l = ⟨.fault .unclosedComment 0, inside.length + 1⟩ := by
  rw [lexeme?_comment, Option.some.injEq]
  cases hclose : closeComment? 0 inside with
  | some n =>
      obtain ⟨front, hfirst, rfl⟩ := closeComment?_eq_some_iff.1 hclose
      constructor
      · rintro rfl
        exact .inl ⟨front, hfirst, rfl⟩
      · rintro (⟨front', hfirst', rfl⟩ | ⟨hopen, -⟩)
        · have hclose' := closeComment?_eq_some_iff.2 ⟨front', hfirst', rfl⟩
          rw [Option.some.inj (hclose.symm.trans hclose')]
        · exact absurd hfirst.closes (hopen front hfirst.here)
  | none =>
      have hnotclosed : ∀ front, ¬ FirstClosing 0 front (commentParts inside) := by
        intro front hfirst
        have hclose' := closeComment?_eq_some_iff.2 ⟨front, hfirst, rfl⟩
        rw [hclose] at hclose'
        cases hclose'
      constructor
      · rintro rfl
        refine .inr ⟨?_, rfl⟩
        intro front hfront hcloses
        obtain ⟨front', hfirst⟩ := exists_firstClosing hfront hcloses
        exact hnotclosed front' hfirst
      · rintro (⟨front, hfirst, -⟩ | ⟨-, rfl⟩)
        · exact absurd hfirst (hnotclosed front)
        · rfl

/-- A block comment goes up to the end of the fewest of its parts among which one more comment is closed
than opened. If there are such parts, exactly these are passed, and otherwise the fault is where the
comment begins and takes the rest of the text. Wherever looking for the end comes to, at least one
comment is open, as many as were opened and not closed. -/
theorem pull_comment (p : Position) (inside : List Char) :
    let c : Cursor := ⟨p, '/' :: '*' :: inside⟩
    (∀ l, c.lexeme? = some l ↔
      (∃ front, FirstClosing 0 front (commentParts inside) ∧
          l = ⟨.skipped, (textOfParts front).length + 1⟩) ∨
        (∀ front, front <+: commentParts inside → ¬ ClosesComment 0 front) ∧
          l = ⟨.fault .unclosedComment 0, inside.length + 1⟩) ∧
    (∀ front behind, commentParts inside = front ++ behind →
      FirstClosing 0 front (commentParts inside) →
      c.pull = pull ⟨p.after ('/' :: '*' :: textOfParts front), textOfParts behind⟩) ∧
    ((∀ front, front <+: commentParts inside → ¬ ClosesComment 0 front) →
      c.pull = (.error (.lexical .unclosedComment p), ⟨p.after ('/' :: '*' :: inside), []⟩)) ∧
    (∀ before behind, commentParts inside = before ++ behind →
      (∀ front, front <+: before → ¬ ClosesComment 0 front) →
      1 ≤ depth before ∧ closeComment? 0 inside =
        (closeComment? (depth before - 1).toNat (textOfParts behind)).map
          (· + (textOfParts before).length)) := by
  intro c
  refine ⟨fun l => lexeme?_comment_eq_some_iff, ?_, ?_, fun before behind => depth_of_parts⟩
  · intro front behind hparts hfirst
    have hinside : inside = textOfParts front ++ textOfParts behind := by
      rw [← textOfParts_append, ← hparts, textOfParts_parts]
    have hl := lexeme?_comment_eq_some_iff (p := p).2 (.inl ⟨front, hfirst, rfl⟩)
    rw [pull_of_skipped hl rfl, pass]
    have hskip := skip_length p ('/' :: '*' :: textOfParts front) (textOfParts behind)
    rw [List.cons_append, List.cons_append, ← hinside] at hskip
    exact congrArg pull hskip
  · intro hopen
    have hl := lexeme?_comment_eq_some_iff (p := p).2 (.inr ⟨hopen, rfl⟩)
    have hskip := skip_length p ('/' :: '*' :: inside) []
    rw [List.append_nil] at hskip
    rw [pull_of_fault hl rfl, pass, skip_zero]
    exact congrArg (Prod.mk _) hskip

/-- A slash belongs to one delimiter at most: behind the first one of this comment another comment is
open, and the first that closes is the inner one. Where the text ends with such a slash none is closed.
-/
theorem pull_comment_shared :
    let front : List CommentPart := [.opening, .other '/', .other 'ö', .closing, .closing]
    commentParts "/*/ö*/*/b".toList = front ++ [.other 'b'] ∧
    FirstClosing 0 front (commentParts "/*/ö*/*/b".toList) ∧
    pull ⟨⟨1, 1⟩, "/*/*/ö*/*/b".toList⟩ = pull ⟨⟨1, 11⟩, ['b']⟩ ∧
    1 ≤ depth [.opening] ∧
    pull ⟨⟨1, 1⟩, "/*/".toList⟩ = (.error (.lexical .unclosedComment ⟨1, 1⟩), ⟨⟨1, 4⟩, []⟩) := by
  intro front
  have hparts : commentParts "/*/ö*/*/b".toList = front ++ [.other 'b'] := by decide
  have hfirst : FirstClosing 0 front (commentParts "/*/ö*/*/b".toList) := by
    rw [hparts]
    refine (firstClosing_cons_iff rfl).2 ⟨_, rfl, (firstClosing_cons_iff rfl).2 ⟨_, rfl, ?_⟩⟩
    refine (firstClosing_cons_iff rfl).2 ⟨_, rfl, (firstClosing_cons_iff rfl).2 ⟨_, rfl, ?_⟩⟩
    exact firstClosing_closing_iff.2 rfl
  -- No comment is closed by parts among which no delimiter closes one.
  have hopen : ∀ ps : List CommentPart, ps.count .closing = 0 →
      ∀ front, front <+: ps → ¬ ClosesComment 0 front := by
    intro ps hps front hfront hcloses
    have hcount := hfront.sublist.count_le CommentPart.closing
    rw [ClosesComment] at hcloses
    omega
  obtain ⟨-, hpassed, -, hdepth⟩ := pull_comment ⟨1, 1⟩ "/*/ö*/*/b".toList
  obtain ⟨-, -, hfault, -⟩ := pull_comment ⟨1, 1⟩ "/".toList
  exact ⟨hparts, hfirst, hpassed front _ hparts hfirst,
    (hdepth [.opening] _ hparts (hopen _ (by decide))).1, hfault (hopen _ (by decide))⟩

end Cursor

end Bucket
