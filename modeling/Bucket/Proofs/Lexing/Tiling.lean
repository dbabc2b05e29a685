/-
# Tokens tile a text

The tokens of a text without faults are pieces of it, one behind the other. Each piece is that token
when it stands alone, and between two of them there are blanks and comments only (`Tiled`). Told in
byte offsets, this accounts for all of the text (`Source.tokens_tile`).
-/
import Bucket.Proofs.Lexing.Extent
import Bucket.Proofs.Lexing.Offsets
import Mathlib.Order.Defs.PartialOrder

namespace Bucket

open Lexer
open String (utf8Len)

/-! ## Between tokens -/

/-- What stands in a block comment behind its opening delimiter, up to and with the one that closes it.
Block comments may stand in it, and no character belongs to two delimiters. -/
inductive CommentBody : List Char → Prop where
  | close : CommentBody ['*', '/']
  | nested {inside rest : List Char} :
      CommentBody inside → CommentBody rest → CommentBody ('/' :: '*' :: (inside ++ rest))
  | other {a b : Char} {rest : List Char} :
      ¬ (a = '*' ∧ b = '/') → ¬ (a = '/' ∧ b = '*') → CommentBody (b :: rest) →
      CommentBody (a :: b :: rest)

/-- What may stand between tokens: blanks and comments. A line comment goes up to the next newline,
which is a token, or to the end of the text. -/
inductive Trivia : List Char → Prop where
  | nil : Trivia []
  | blank {c : Char} {rest : List Char} : isBlank c = true → Trivia rest → Trivia (c :: rest)
  | lineComment {line : List Char} : '\n' ∉ line → Trivia ('/' :: '/' :: line)
  | blockComment {body rest : List Char} :
      CommentBody body → Trivia rest → Trivia ('/' :: '*' :: (body ++ rest))

/-- A block comment that is closed, with others still open in it, has as many bodies. -/
theorem exists_bodies_of_closeComment? {inner n : Nat} {text : List Char}
    (h : closeComment? inner text = some n) :
    ∃ bodies : List (List Char), bodies.length = inner + 1 ∧ (∀ body ∈ bodies, CommentBody body) ∧
      text.take n = bodies.flatten := by
  fun_induction closeComment? inner text generalizing n with
  | case1 => cases h
  | case2 => cases h
  | case3 a b rest hclose =>
      obtain rfl := Option.some.inj h
      obtain ⟨rfl, rfl⟩ := hclose
      exact ⟨[['*', '/']], rfl, by simpa using CommentBody.close, rfl⟩
  | case4 a b rest hclose inner ih =>
      obtain ⟨m, hm, rfl⟩ := Option.map_eq_some_iff.1 h
      obtain ⟨rfl, rfl⟩ := hclose
      obtain ⟨bodies, hlength, hbodies, htake⟩ := ih hm
      refine ⟨['*', '/'] :: bodies, by rw [List.length_cons, hlength], ?_, ?_⟩
      · exact List.forall_mem_cons.2 ⟨.close, hbodies⟩
      · rw [List.take_succ_cons, List.take_succ_cons, htake]
        rfl
  | case5 inner a b rest hclose hopen ih =>
      obtain ⟨m, hm, rfl⟩ := Option.map_eq_some_iff.1 h
      obtain ⟨rfl, rfl⟩ := hopen
      obtain ⟨bodies, hlength, hbodies, htake⟩ := ih hm
      -- The first two of them are the comment that is opened here and what follows it.
      obtain _ | ⟨inside, _ | ⟨after, bodies⟩⟩ := bodies
      · cases hlength
      · cases hlength
      · simp only [List.forall_mem_cons] at hbodies
        obtain ⟨hinside, hafter, hbodies⟩ := hbodies
        refine ⟨('/' :: '*' :: (inside ++ after)) :: bodies, by simpa using hlength,
          List.forall_mem_cons.2 ⟨.nested hinside hafter, hbodies⟩, ?_⟩
        rw [List.take_succ_cons, List.take_succ_cons, htake]
        simp
  | case6 inner a b rest hclose hopen ih =>
      obtain ⟨m, hm, rfl⟩ := Option.map_eq_some_iff.1 h
      obtain ⟨bodies, hlength, hbodies, htake⟩ := ih hm
      obtain _ | ⟨body, bodies⟩ := bodies
      · cases hlength
      · obtain ⟨hbody, hrest⟩ := List.forall_mem_cons.1 hbodies
        obtain ⟨m, rfl⟩ : ∃ k, m = k + 1 := Nat.exists_eq_add_one.2 (closeComment?_le hm).1
        -- The next body begins with the next character.
        obtain ⟨tail, rfl⟩ : ∃ tail, body = b :: tail := by
          cases body with
          | nil => cases hbody
          | cons d tail =>
              rw [List.take_succ_cons, List.flatten_cons, List.cons_append] at htake
              exact ⟨tail, by rw [(List.cons.inj htake).1]⟩
        refine ⟨(a :: b :: tail) :: bodies, hlength,
          List.forall_mem_cons.2 ⟨.other hclose hopen hbody, hrest⟩, ?_⟩
        rw [List.take_succ_cons, htake]
        rfl

/-- A block comment that is closed has a body. -/
theorem commentBody_of_closeComment? {n : Nat} {text : List Char}
    (h : closeComment? 0 text = some n) : CommentBody (text.take n) := by
  obtain ⟨bodies, hlength, hbodies, htake⟩ := exists_bodies_of_closeComment? h
  obtain ⟨body, rfl⟩ := List.length_eq_one_iff.1 hlength
  rw [htake, List.flatten_singleton]
  exact hbodies body (List.mem_singleton_self body)

/-- No newline stands at the head of what stands between tokens. -/
theorem Trivia.head?_ne {gap : List Char} (h : Trivia gap) : gap.head? ≠ some '\n' := by
  cases h with
  | nil => simp
  | blank hc _ =>
      rintro ⟨⟩
      cases hc
  | lineComment _ => simp
  | blockComment _ _ => simp

/-- Blanks stand between tokens. -/
theorem Trivia.blanks {blanks gap : List Char} (hblanks : ∀ c ∈ blanks, isBlank c = true)
    (h : Trivia gap) : Trivia (blanks ++ gap) := by
  induction blanks with
  | nil => exact h
  | cons c blanks ih =>
      rw [List.forall_mem_cons] at hblanks
      exact .blank hblanks.1 (ih hblanks.2)

/-- What is skipped is a run of blanks or begins with a slash. -/
theorem eq_slash_of_skipped {c : Char} {rest : List Char} (hblank : ¬ isBlank c = true)
    (h : (Lexeme.of c rest).meaning = .skipped) : c = '/' := by
  have hnumber : ∀ text, (Lexeme.number text).meaning ≠ .skipped := by
    intro text htext
    simp only [Lexeme.number] at htext
    split at htext <;> cases htext
  have hequals : ∀ alone withEquals text,
      (Lexeme.signOrEquals alone withEquals text).meaning ≠ .skipped := by
    intro alone withEquals text htext
    unfold Lexeme.signOrEquals at htext
    split at htext <;> cases htext
  unfold Lexeme.of at h
  split at h
  · cases h
  · split at h
    · exact absurd h (hnumber _)
    · split at h
      case h_2 =>
        unfold Lexeme.string at h
        split at h <;> cases h
      case h_3 =>
        unfold Lexeme.character at h
        split at h <;> cases h
      case h_4 =>
        split at h
        · exact absurd h (hnumber _)
        · cases h
      case h_5 => rfl
      case h_6 =>
        unfold Lexeme.bang at h
        split at h <;> cases h
      case h_7 => exact absurd h (hequals _ _ _)
      case h_8 => exact absurd h (hequals _ _ _)
      case h_9 => exact absurd h (hequals _ _ _)
      all_goals cases h

/-- What is skipped may stand between tokens, in front of more that may and stands behind it. -/
theorem trivia_of_skipped {c : Char} {rest gap behind : List Char}
    (h : (Lexeme.of c rest).meaning = .skipped)
    (hrest : rest.drop (Lexeme.of c rest).more = gap ++ behind) (hgap : Trivia gap) :
    Trivia (c :: (rest.take (Lexeme.of c rest).more ++ gap)) := by
  by_cases hblank : isBlank c = true
  · rw [Lexeme.of_blank hblank, Lexeme.blanks, take_length_takeWhile]
    exact .blank hblank (.blanks (fun d hd => List.mem_takeWhile_imp hd) hgap)
  · obtain rfl := eq_slash_of_skipped hblank h
    rw [show Lexeme.of '/' rest = .slash rest from rfl] at h hrest ⊢
    unfold Lexeme.slash at h hrest ⊢
    split at h
    · -- Behind a line comment there is a newline or nothing.
      rename_i line
      have hover := any_head?_dropWhile (· != '\n') line
      simp only [List.drop_succ_cons, drop_length_takeWhile] at hrest
      rw [hrest] at hover
      obtain rfl : gap = [] := by
        cases gap with
        | nil => rfl
        | cons d gap =>
            have hd : d = '\n' := by simpa using hover
            exact absurd (congrArg some hd) hgap.head?_ne
      simp only [List.take_succ_cons, take_length_takeWhile, List.append_nil]
      exact .lineComment fun hmem => by simpa using List.mem_takeWhile_imp hmem
    · rename_i inside
      cases hclose : closeComment? 0 inside with
      | none => simp [hclose] at h
      | some n =>
          simp only [List.take_succ_cons, List.cons_append]
          exact .blockComment (commentBody_of_closeComment? hclose) hgap
    · cases h

/-! ## Tokens as pieces of a text -/

/-- A text that is one token to its end is read as that token. -/
theorem Lexes.of_lexeme {c : Char} {used : List Char} {k : Token.Kind}
    (h : (Lexeme.of c used).meaning = .token k) (hmore : (Lexeme.of c used).more = used.length) :
    Lexes (c :: used) [k] := by
  intro p
  have hpull := Cursor.pull_of_token (c := ⟨p, c :: used⟩) rfl h
  obtain ⟨ts, e, hnil, hkinds⟩ := Lexes.nil (p.after (c :: used))
  have hpass := Cursor.pass_append p c hmore []
  rw [List.append_nil] at hpass
  rw [hpass] at hpull
  rw [Cursor.tokens_of_pull hpull (Lexeme.isEndOfFile_of_token h), hnil]
  exact ⟨_, e, rfl, congrArg (k :: ·) hkinds⟩

namespace Cursor

/-- Reading a token passes what stands in front of it and then the token, which is the same when it
stands alone. -/
theorem exists_of_pull_token {c next : Cursor} {t : Token} (h : c.pull = (.ok t, next))
    (ht : t.isEndOfFile = false) (hw : t.kind.isWritable = true) :
    ∃ gap word, c.rest = gap ++ (word ++ next.rest) ∧ Trivia gap ∧ word ≠ [] ∧
      Lexes word [t.kind] ∧ t.span = ⟨c.position.after gap, c.position.after (gap ++ word)⟩ ∧
      next.position = c.position.after (gap ++ word) := by
  fun_induction pull c with
  | case1 c =>
      obtain rfl := Except.ok.inj (Prod.mk.inj h).1
      cases ht
  | case2 c l hl k hk =>
      obtain ⟨hok, rfl⟩ := Prod.mk.inj h
      obtain rfl := Except.ok.inj hok
      obtain ⟨p, rest⟩ := c
      obtain ⟨head, rest, rfl, rfl⟩ := exists_of_lexeme? hl
      obtain ⟨used, behind, rfl, hover⟩ :=
        Lexeme.ends_of (Lexeme.writable_of_token hk hw) (Lexeme.faultless_of_token hk)
      have halone := hover.read_eq [] (.inl rfl)
      rw [List.append_nil] at halone
      rw [pass_append p head hover.more_eq behind]
      exact ⟨[], head :: used, rfl, .nil, List.cons_ne_nil _ _,
        .of_lexeme (halone ▸ hk) (halone ▸ hover.more_eq), rfl, rfl⟩
  | case3 c l hl hskipped ih =>
      obtain ⟨p, rest⟩ := c
      obtain ⟨head, rest, rfl, rfl⟩ := exists_of_lexeme? hl
      obtain ⟨gap, word, hrest, hgap, hword, hlexes, hspan, hposition⟩ := ih h
      have hbehind : rest.drop (Lexeme.of head rest).more = gap ++ (word ++ next.rest) := hrest
      refine ⟨head :: (rest.take (Lexeme.of head rest).more ++ gap), word, ?_,
        trivia_of_skipped hskipped hbehind hgap, hword, hlexes, ?_, ?_⟩
      · rw [List.cons_append, List.append_assoc, ← hbehind, List.take_append_drop]
      · rw [hspan]
        simp [pass, skip, Position.after_append]
      · rw [hposition]
        simp [pass, skip, Position.after_append]
  | case4 c l hl => simp at h

/-- Where the end of the file is read, nothing is left but what may stand between tokens. -/
theorem trivia_of_pull_end {c next : Cursor} {t : Token} (h : c.pull = (.ok t, next))
    (ht : t.isEndOfFile = true) : Trivia c.rest := by
  fun_induction pull c with
  | case1 c hl =>
      rw [rest_eq_nil_of_lexeme? hl]
      exact .nil
  | case2 c l hl k hk =>
      obtain rfl := Except.ok.inj (Prod.mk.inj h).1
      obtain ⟨head, rest, -, rfl⟩ := exists_of_lexeme? hl
      rw [Token.isEndOfFile, Lexeme.isEndOfFile_of_token hk] at ht
      cases ht
  | case3 c l hl hskipped ih =>
      obtain ⟨p, rest⟩ := c
      obtain ⟨head, rest, rfl, rfl⟩ := exists_of_lexeme? hl
      have hbehind : Trivia (rest.drop (Lexeme.of head rest).more) := ih h
      have htrivia := trivia_of_skipped hskipped (List.append_nil _).symm hbehind
      rwa [List.take_append_drop] at htrivia
  | case4 c l hl => simp at h

end Cursor

/-- Whether tokens are the pieces of a text behind another one, from left to right. Each piece is that
token alone, and between them there is what may stand between tokens. -/
inductive Tiled : List Char → List Char → List Token → Prop where
  | nil {before gap : List Char} : Trivia gap → Tiled before gap []
  | cons {before gap word rest : List Char} {t : Token} {ts : List Token} :
      Trivia gap → word ≠ [] → Lexes word [t.kind] →
      t.span = ⟨Position.first.after (before ++ gap), Position.first.after (before ++ gap ++ word)⟩ →
      Tiled (before ++ gap ++ word) rest ts → Tiled before (gap ++ (word ++ rest)) (t :: ts)

/-- The tokens of a text without faults are its pieces. -/
theorem Cursor.tiled_tokens {c : Cursor} {e : Position} {before : List Char}
    (hposition : c.position = Position.first.after before) (h : c.tokens.stop = .ok e) :
    Tiled before c.rest c.tokens.tokens := by
  have hwritable := isWritable_of_mem_tokens h
  fun_induction tokens c generalizing before with
  | case1 c d next hpull => cases h
  | case2 c t next hpull ht => exact .nil (trivia_of_pull_end hpull ht)
  | case3 c t next hpull ht ih =>
      obtain ⟨hw, hwritable⟩ := List.forall_mem_cons.1 hwritable
      obtain ⟨gap, word, hrest, hgap, hword, hlexes, hspan, hnext⟩ :=
        exists_of_pull_token hpull (by simpa using ht) hw
      rw [hposition, ← Position.after_append, ← List.append_assoc] at hnext
      rw [hposition, ← Position.after_append, ← Position.after_append, ← List.append_assoc] at hspan
      rw [hrest]
      exact .cons hgap hword hlexes hspan (ih hnext h hwritable)

/-! ## Order -/

/-- Positions are ordered as the places in a text are. -/
instance : PartialOrder Position where
  le_refl := Position.le_refl
  le_trans _ _ _ := Position.le_trans
  le_antisymm _ _ := Position.le_antisymm

namespace Position

theorem lt_advance (p : Position) (c : Char) : p < p.advance c := by
  rw [lt_iff_le_not_ge, le_def, le_def, advance]
  split <;> dsimp only <;> omega

/-- Reading goes forward. -/
theorem le_after (p : Position) (a : List Char) : p ≤ p.after a := by
  induction a generalizing p with
  | nil => exact p.le_refl
  | cons c a ih => exact le_trans (p.lt_advance c).le (ih _)

theorem lt_after (p : Position) {a : List Char} (ha : a ≠ []) : p < p.after a := by
  obtain ⟨c, a, rfl⟩ := List.exists_cons_of_ne_nil ha
  exact lt_of_lt_of_le (p.lt_advance c) (le_after _ a)

end Position

/-- Pieces of a text stand behind each other, and none is empty. -/
theorem Tiled.ordered {before rest : List Char} {ts : List Token} (h : Tiled before rest ts) :
    (∀ t ∈ ts, Position.first.after before ≤ t.span.start ∧ t.span.start < t.span.stop) ∧
      ts.Pairwise fun t t' => t.span.stop ≤ t'.span.start := by
  induction h with
  | nil _ => exact ⟨by simp, .nil⟩
  | @cons before gap word rest t ts _ hword _ hspan _ ih =>
      obtain ⟨hts, hpairwise⟩ := ih
      have hgap : Position.first.after before ≤ Position.first.after (before ++ gap) := by
        rw [Position.after_append]
        exact Position.le_after _ gap
      have hpiece : Position.first.after (before ++ gap) <
          Position.first.after (before ++ gap ++ word) := by
        rw [Position.after_append _ (before ++ gap) word]
        exact Position.lt_after _ hword
      refine ⟨List.forall_mem_cons.2 ⟨?_, fun u hu => ?_⟩, hpairwise.cons fun u hu => ?_⟩
      · rw [hspan]
        exact ⟨hgap, hpiece⟩
      · exact ⟨le_trans hgap (le_trans hpiece.le (hts u hu).1), (hts u hu).2⟩
      · rw [hspan]
        exact (hts u hu).1

/-- Pieces of a text are over where it is. -/
theorem Tiled.stop_le {before rest : List Char} {ts : List Token} (h : Tiled before rest ts) :
    ∀ t ∈ ts, t.span.stop ≤ Position.first.after (before ++ rest) := by
  induction h with
  | nil _ => simp
  | @cons before gap word rest t ts _ _ _ hspan _ ih =>
      have htext : before ++ (gap ++ (word ++ rest)) = before ++ gap ++ word ++ rest := by simp
      rw [htext]
      refine List.forall_mem_cons.2 ⟨?_, ih⟩
      rw [hspan, Position.after_append _ (before ++ gap ++ word)]
      exact Position.le_after _ rest

/-! ## Ranges of bytes -/

namespace Source

/-- Whether a token stands in a range of bytes: the range is not empty, begins and ends between
characters, is what the span of the token tells, and holds a text that is this token alone. -/
structure Holds (s : Source) (t : Token) (range : Nat × Nat) : Prop where
  lt : range.1 < range.2
  start_mem : range.1 ∈ s.boundaries
  stop_mem : range.2 ∈ s.boundaries
  span_eq : t.span = s.span range.1 range.2
  alone : ∃ span, (ofText s.name (s.slice range.1 range.2)).tokens.toExcept = .ok [⟨t.kind, span⟩]

/-- Whether a range of bytes lies behind another one, with blanks and comments between them. -/
def Follows (s : Source) (range next : Nat × Nat) : Prop :=
  range.2 ≤ next.1 ∧ Trivia (s.slice range.2 next.1).toList

/-- The text of some ranges of bytes and of what lies between them. -/
def textOfRanges (s : Source) (ranges : List (Nat × Nat)) : String :=
  String.join (ranges.zipWith (fun r next => s.slice r.1 r.2 ++ s.slice r.2 next.1) ranges.tail)

/-- A text that is read as one token is that token alone as a source. -/
theorem toExcept_of_lexes {name : String} {text : List Char} {k : Token.Kind}
    (h : Lexes text [k]) :
    ∃ span, (ofText name (String.ofList text)).tokens.toExcept = .ok [⟨k, span⟩] := by
  obtain ⟨ts, e, hts, hkinds⟩ := h .first
  have htokens : (ofText name (String.ofList text)).tokens = ⟨ts, .ok e⟩ := by
    rw [ofText, String.toList_ofList, h.dropByteOrderMark]
    rw [Source.tokens, cursor, Cursor.ofChars, chars, String.toList_ofList, hts]
  obtain ⟨t, rfl⟩ : ∃ t, ts = [t] := by
    rw [← List.length_eq_one_iff, ← List.length_map (f := (·.kind)), hkinds]
    rfl
  obtain rfl := (List.cons.inj hkinds).1
  exact ⟨t.span, by rw [htokens]; rfl⟩

theorem textOfRanges_cons (s : Source) (r next : Nat × Nat) (ranges : List (Nat × Nat)) :
    s.textOfRanges (r :: next :: ranges) =
      s.slice r.1 r.2 ++ (s.slice r.2 next.1 ++ s.textOfRanges (next :: ranges)) := by
  rw [textOfRanges, List.tail_cons, List.zipWith_cons_cons, String.join_cons, String.append_assoc]
  rfl

/-- What may stand between tokens does so between the ranges of bytes on both sides. -/
theorem follows_of_trivia {s : Source} {before gap behind : List Char}
    (hs : s.chars = before ++ gap ++ behind) (hgap : Trivia gap) (start stop : Nat) :
    s.Follows (start, utf8Len before) (utf8Len (before ++ gap), stop) := by
  refine ⟨?_, ?_⟩
  · rw [String.utf8Len_append]
    exact Nat.le_add_right _ _
  · rw [slice_utf8Len hs, String.toList_ofList]
    exact hgap

/-- A piece of a text that is a token alone stands in a range of bytes. -/
theorem holds_of_piece {s : Source} {before word behind : List Char} {t : Token}
    (hs : s.chars = before ++ word ++ behind) (hword : word ≠ []) (hlexes : Lexes word [t.kind])
    (hspan : t.span = ⟨Position.first.after before, Position.first.after (before ++ word)⟩) :
    s.Holds t (utf8Len before, utf8Len (before ++ word)) := by
  have hs' : s.chars = before ++ (word ++ behind) := by rw [hs, List.append_assoc]
  constructor
  case lt =>
    have hpos : utf8Len word ≠ 0 := fun h => hword (String.utf8Len_eq_zero.1 h)
    rw [String.utf8Len_append]
    dsimp only
    omega
  case start_mem => exact utf8Len_mem_boundaries hs'
  case stop_mem => exact utf8Len_mem_boundaries hs
  case span_eq => rw [hspan, span, positionAt_utf8Len hs', positionAt_utf8Len hs]
  case alone =>
    dsimp only
    rw [slice_utf8Len hs]
    exact toExcept_of_lexes hlexes

end Source

/-- The pieces of a text are ranges of bytes. With what lies between them they are the text. -/
theorem Tiled.exists_ranges {s : Source} {before rest : List Char} {ts : List Token}
    (h : Tiled before rest ts) (hs : s.chars = before ++ rest) (start : Nat) :
    ∃ ranges, List.Forall₂ s.Holds ts ranges ∧
      List.IsChain s.Follows ((start, utf8Len before) :: (ranges ++ [(s.byteSize, s.byteSize)])) ∧
      s.textOfRanges ((start, utf8Len before) :: (ranges ++ [(s.byteSize, s.byteSize)])) =
        s.slice start (utf8Len before) ++ String.ofList rest := by
  induction h generalizing start with
  | @nil before gap hgap =>
      have hs' : s.chars = before ++ gap ++ [] := by rw [hs, List.append_nil]
      have hsize : s.byteSize = utf8Len (before ++ gap) := by
        rw [Source.byteSize, ← String.utf8Len_toList]
        exact congrArg utf8Len hs
      refine ⟨[], .nil, ?_, ?_⟩ <;> rw [List.nil_append, hsize]
      · exact (List.IsChain.singleton _).cons_cons (Source.follows_of_trivia hs' hgap start _)
      · rw [Source.textOfRanges_cons, Source.slice_utf8Len hs', Source.textOfRanges]
        simp
  | @cons before gap word rest t ts hgap hword hlexes hspan _ ih =>
      have hchars : s.chars = before ++ gap ++ (word ++ rest) := by rw [hs, List.append_assoc]
      have hpiece : s.chars = before ++ gap ++ word ++ rest :=
        hchars.trans (List.append_assoc _ _ _).symm
      obtain ⟨ranges, hholds, hchain, htext⟩ := ih hpiece (utf8Len (before ++ gap))
      refine ⟨(utf8Len (before ++ gap), utf8Len (before ++ gap ++ word)) :: ranges,
        .cons (Source.holds_of_piece hpiece hword hlexes hspan) hholds,
        hchain.cons_cons (Source.follows_of_trivia hchars hgap start _), ?_⟩
      rw [List.cons_append, Source.textOfRanges_cons, htext, Source.slice_utf8Len hchars,
        Source.slice_utf8Len hpiece, ← String.ofList_append, ← String.ofList_append]

/-- The tokens of a source without faults tile its text. There are ranges of bytes, one for each token
and in their order, that hold the tokens, and between these, in front of them and behind them are blanks
and comments only. So nothing of the text is lost or read twice, the spans of the tokens are not empty
and stand behind each other, and the end of the file is read at the end of the text. -/
theorem Source.tokens_tile (s : Source) (ts : List Token) (h : s.tokens.toExcept = .ok ts) :
    (∃ ranges : List (Nat × Nat),
      List.Forall₂ s.Holds ts ranges ∧
      List.IsChain s.Follows ((0, 0) :: (ranges ++ [(s.byteSize, s.byteSize)])) ∧
      s.textOfRanges ((0, 0) :: (ranges ++ [(s.byteSize, s.byteSize)])) = s.text) ∧
    (∀ t ∈ ts, t.span.start < t.span.stop) ∧
    (ts.Pairwise fun t t' => t.span.stop ≤ t'.span.start) ∧
    s.tokens.stop = .ok s.endPosition := by
  obtain ⟨e, htokens⟩ := Tokens.exists_of_toExcept h
  have hstop : s.tokens.stop = .ok e := congrArg Tokens.stop htokens
  have htiled : Tiled [] s.chars s.tokens.tokens := Cursor.tiled_tokens rfl hstop
  rw [htokens] at htiled
  obtain ⟨hspans, hpairwise⟩ := htiled.ordered
  refine ⟨?_, fun t ht => (hspans t ht).2, hpairwise, ?_⟩
  · obtain ⟨ranges, hholds, hchain, htext⟩ := htiled.exists_ranges rfl (utf8Len [])
    have hempty : s.slice (utf8Len []) (utf8Len ([] ++ [])) = "" := slice_utf8Len (b := s.chars) rfl
    refine ⟨ranges, hholds, hchain, htext.trans ?_⟩
    rw [List.append_nil] at hempty
    rw [hempty, chars, String.ofList_toList, String.empty_append]
  · rw [hstop, Cursor.stop_eq_endPosition hstop]
    rfl

/-- Comments, characters of more than one byte and a newline in a string do not move the tokens. -/
theorem Source.tokens_tile_string :
    let s := ofText "in" "a /* /* ö */ */\t\"ü\n\"// x"
    let ts : List Token :=
      [⟨.identifier "a", ⟨⟨1, 1⟩, ⟨1, 2⟩⟩⟩, ⟨.literal (.string "ü\n"), ⟨⟨1, 17⟩, ⟨2, 2⟩⟩⟩]
    s.tokens.toExcept = .ok ts ∧
    ∃ ranges : List (Nat × Nat),
      List.Forall₂ s.Holds ts ranges ∧
      List.IsChain s.Follows ((0, 0) :: (ranges ++ [(s.byteSize, s.byteSize)])) ∧
      s.textOfRanges ((0, 0) :: (ranges ++ [(s.byteSize, s.byteSize)])) = s.text := by
  intro s ts
  have h : s.tokens.toExcept = .ok ts := by decide +kernel
  exact ⟨h, (tokens_tile s ts h).1⟩

end Bucket
