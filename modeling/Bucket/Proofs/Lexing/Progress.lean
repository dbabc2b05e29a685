/-
# Lexers make progress

A lexer may be moved on after each fault. Whatever moves are made, each of them passes whole lexemes of
the source, a fault does not change the token that is shown, and tokens stand one behind the other with
faults between them. A move that does not come to the end of the file takes at least one character, so
after as many moves as there are characters the lexer shows the end of the file, and no move changes
that (`Source.lexer_progress`).
-/
import Bucket.Proofs.Lexing.Standing

namespace Bucket

/-! ## Moving on -/

namespace Lexer

/-- The two ways to move on to the next token. -/
inductive Move where
  | next
  | advance

/-- What a move gives back while a token is shown: one way gives back that token, and the other one
nothing. -/
def Move.given (shown : Token) : Move → Option Token
  | next => none
  | advance => some shown

/-- Moves on to the next token. -/
def perform (l : Lexer) : Move → Except Diagnostic (Option Token) × Lexer
  | .next => (l.next.1.map fun _ => none, l.next.2)
  | .advance => (l.advance.1.map some, l.advance.2)

/-- The lexer after some moves, whether or not they meet faults. -/
def after (l : Lexer) (moves : List Move) : Lexer :=
  moves.foldl (fun l move => (l.perform move).2) l

/-- The tokens that some moves come to. A move that meets a fault comes to none. -/
def produced (l : Lexer) : List Move → List Token
  | [] => []
  | move :: moves =>
      match (l.perform move).1 with
      | .ok _ => (l.perform move).2.current :: (l.perform move).2.produced moves
      | .error _ => (l.perform move).2.produced moves

variable {s : Source} {l : Lexer} {o : Nat}

/-- Both ways to move on read the next token. -/
theorem perform_eq (l : Lexer) (move : Move) :
    l.perform move =
      match l.cursor.pull with
      | (.ok t, c) => (.ok (move.given l.current), ⟨c, t⟩)
      | (.error d, c) => (.error d, ⟨c, l.current⟩) := by
  rcases hpull : l.cursor.pull with ⟨d | t, c⟩ <;> cases move <;>
    simp only [perform, next, advance, hpull] <;> rfl

theorem cursor_perform (l : Lexer) (move : Move) :
    (l.perform move).2.cursor = l.cursor.pull.2 := by
  rw [perform_eq]
  split <;> rename_i h <;> rw [h]

theorem current_perform_of_error {move : Move} {d : Diagnostic}
    (h : (l.perform move).1 = .error d) : (l.perform move).2.current = l.current := by
  rw [perform_eq] at h ⊢
  split at h
  · cases h
  · rfl

/-! ## Lexers in a source -/

/-- Whether a lexer stands in a source at a byte offset and shows a token in front of it. The end of the
file is shown at the end of the text. -/
structure Shows (l : Lexer) (s : Source) (o : Nat) : Prop where
  stands : s.StandsAt l.cursor o
  stop_le : l.current.span.stop ≤ s.positionAt o
  ended : l.atEnd = true → l.current = .endOfFile s.endPosition ∧ l.cursor.rest = []

/-- Whether a token may be shown behind another one. -/
structure ShownBehind (t : Token) (p : Position) : Prop where
  le_start : p ≤ t.span.start
  start_le_stop : t.span.start ≤ t.span.stop
  not_empty : t.isEndOfFile = false → t.span.start < t.span.stop

/-- What is read in a source is shown behind what stands in front of it. -/
theorem shows_of_pull {c next : Cursor} {t : Token} (h : s.StandsAt c o)
    (hpull : c.pull = (.ok t, next)) :
    ∃ o', Shows ⟨next, t⟩ s o' ∧ ShownBehind t (s.positionAt o) := by
  obtain ⟨-, o', hstands, hle, hread⟩ := h.pull
  rw [hpull] at hstands hread
  have ho' := hstands.mem_boundaries
  rcases hread with ⟨rfl, hrest⟩ | ⟨ht, start, hstart, hle', hlt, hspan⟩
  · refine ⟨o', ⟨hstands, ?_, fun _ => ⟨rfl, hrest⟩⟩, (Source.positionAt_bounds h.mem_boundaries).2,
      Position.le_refl _, fun ht => by cases ht⟩
    -- Where nothing is left the cursor is at the end.
    have hend := hstands.endPosition_eq
    rw [Cursor.endPosition, hrest, Position.after_nil, hstands.position_eq] at hend
    rw [hend]
    exact Position.le_refl _
  · have hbounds := Source.positionAt_lt_positionAt hstart ho' hlt
    refine ⟨o', ⟨hstands, ?_, fun hend => ?_⟩, ?_, ?_, fun _ => ?_⟩
    · rw [hspan]
      exact Position.le_refl _
    · rw [atEnd, ht] at hend
      cases hend
    · rw [hspan]
      exact Source.positionAt_le_positionAt h.mem_boundaries hstart hle'
    · rw [hspan]
      exact hbounds.le
    · rw [hspan]
      exact hbounds

/-- A lexer that was just made shows the first token of its source. -/
theorem shows_of_ofSource (h : ofSource s = .ok l) :
    ∃ o, l.Shows s o ∧ ShownBehind l.current .first ∧
      Relation.ReflTransGen s.Takes s.cursor l.cursor ∧
      (l.atEnd = true ∨ l.cursor.rest.length < s.chars.length) := by
  have hstands := Source.StandsAt.cursor s
  unfold ofSource at h
  split at h
  · rename_i t c hpull
    obtain rfl := Except.ok.inj h
    obtain ⟨o, hshows, hbehind⟩ := shows_of_pull hstands hpull
    have hpath := hstands.pull.1
    have hlength := s.cursor.length_pull
    rw [hpull] at hpath hlength
    rw [← hstands.position_eq] at hbehind
    refine ⟨o, hshows, hbehind, hpath, hlength.symm.imp_left ?_⟩
    rintro ⟨-, p, hp⟩
    rw [atEnd, Except.ok.inj hp]
    rfl
  · cases h

namespace Shows

/-- A move takes at least one character, or comes to the end of the file. -/
theorem length_perform (h : l.Shows s o) (move : Move) :
    (l.perform move).2.atEnd = true ∨
      l.atEnd = false ∧ (l.perform move).2.cursor.rest.length < l.cursor.rest.length := by
  have hlength := l.cursor.length_pull
  rw [perform_eq]
  rcases hlength with hlt | ⟨-, p, hp⟩
  · -- At the end of the file there would be no character to take.
    right
    refine ⟨?_, ?_⟩
    · rw [← Bool.not_eq_true]
      intro hend
      rw [(h.ended hend).2] at hlt
      cases hlt
    · split <;> rename_i hpull <;> rwa [hpull] at hlt
  · left
    split
    · rename_i hpull
      rw [hpull] at hp
      rw [atEnd, Except.ok.inj hp]
      rfl
    · rename_i hpull
      rw [hpull] at hp
      cases hp

/-- At the end of the file a lexer stays as it is. -/
theorem perform_of_atEnd (h : l.Shows s o) (hend : l.atEnd = true) (move : Move) :
    l.perform move = (.ok (move.given l.current), l) := by
  obtain ⟨hcurrent, hrest⟩ := h.ended hend
  have hposition : l.cursor.position = s.endPosition := by
    rw [← h.stands.endPosition_eq, Cursor.endPosition, hrest, Position.after_nil]
  have hlexeme : l.cursor.lexeme? = none := by rw [Cursor.lexeme?, hrest]
  rw [perform_eq, Cursor.pull_of_end hlexeme, hposition, ← hcurrent]

/-- A move leads on in the source, and comes to a token behind the one that is shown unless it meets a
fault. -/
theorem perform (h : l.Shows s o) (move : Move) :
    ∃ o', (l.perform move).2.Shows s o' ∧
      ∀ given, (l.perform move).1 = .ok given →
        ShownBehind (l.perform move).2.current l.current.span.stop := by
  have hread := h.stands.pull
  rw [perform_eq]
  split
  · rename_i t c hpull
    obtain ⟨o', hshows, hbehind⟩ := shows_of_pull h.stands hpull
    exact ⟨o', hshows, fun _ _ => ⟨le_trans h.stop_le hbehind.le_start, hbehind.start_le_stop,
      hbehind.not_empty⟩⟩
  · rename_i d c hpull
    obtain ⟨-, o', hstands, hle, -⟩ := hread
    rw [hpull] at hstands
    refine ⟨o', ⟨hstands, ?_, fun hend => ?_⟩, fun _ hok => by cases hok⟩
    · exact le_trans h.stop_le
        (Source.positionAt_le_positionAt h.stands.mem_boundaries hstands.mem_boundaries hle)
    · -- At the end of the file there are no more faults.
      have hsame := h.perform_of_atEnd hend .next
      rw [perform_eq, hpull] at hsame
      cases (Prod.mk.inj hsame).1

/-- Moves lead on in the source. -/
theorem after (h : l.Shows s o) (moves : List Move) :
    ∃ o', (l.after moves).Shows s o' ∧
      Relation.ReflTransGen s.Takes l.cursor (l.after moves).cursor := by
  induction moves generalizing l o with
  | nil => exact ⟨o, h, .refl⟩
  | cons move moves ih =>
      obtain ⟨o₁, hshows, -⟩ := h.perform move
      obtain ⟨o', hafter, hpath⟩ := ih hshows
      rw [cursor_perform] at hpath
      exact ⟨o', hafter, h.stands.pull.1.trans hpath⟩

/-- The tokens that moves come to stand behind the one that is shown, and behind each other. -/
theorem produced_ordered (h : l.Shows s o) (moves : List Move) :
    (∀ t ∈ l.produced moves, ShownBehind t l.current.span.stop) ∧
      (l.produced moves).Pairwise fun t t' => t.span.stop ≤ t'.span.start := by
  induction moves generalizing l o with
  | nil => exact ⟨by simp [produced], .nil⟩
  | cons move moves ih =>
      obtain ⟨o', hshows, hbehind⟩ := h.perform move
      obtain ⟨htokens, hpairwise⟩ := ih hshows
      rw [produced]
      split
      · rename_i given hok
        have hfirst := hbehind given hok
        refine ⟨List.forall_mem_cons.2 ⟨hfirst, fun t ht => ?_⟩,
          hpairwise.cons fun t ht => (htokens t ht).le_start⟩
        have ht := htokens t ht
        exact ⟨le_trans hfirst.le_start (le_trans hfirst.start_le_stop ht.le_start),
          ht.start_le_stop, ht.not_empty⟩
      · rename_i d hfault
        rw [current_perform_of_error hfault] at htokens
        exact ⟨htokens, hpairwise⟩

/-- As many moves as there are characters left, and one more, come to the end of the file. -/
theorem atEnd_after (h : l.Shows s o) {moves : List Move}
    (hmoves : l.atEnd = true ∨ l.cursor.rest.length < moves.length) :
    (l.after moves).atEnd = true := by
  induction moves generalizing l o with
  | nil => exact hmoves.resolve_right (Nat.not_lt_zero _)
  | cons move moves ih =>
      obtain ⟨o', hshows, -⟩ := h.perform move
      refine ih hshows ((h.length_perform move).imp_right ?_)
      rintro ⟨hgoing, hshorter⟩
      rcases hmoves with hend | hlt
      · rw [hgoing] at hend
        cases hend
      · rw [List.length_cons] at hlt
        exact Nat.lt_of_lt_of_le hshorter (Nat.le_of_lt_succ hlt)

end Shows

end Lexer

/-- A lexer of a source makes progress, whatever moves are made and however many faults they meet. Each
move passes whole lexemes, each of at least one character and between two boundaries of the text. A
fault leaves the token that is shown, and advancing gives back that token. The tokens that the moves come
to are not empty, but for the end of the file, and stand behind each other. After as many moves as the
text has characters the end of the file is shown, at the end of the text, and then no move changes
anything or meets a fault. -/
theorem Source.lexer_progress {s : Source} {l : Lexer} (h : Lexer.ofSource s = .ok l)
    (moves : List Lexer.Move) :
    let now := l.after moves
    Relation.ReflTransGen s.Takes s.cursor now.cursor ∧
    (∀ move, Relation.ReflTransGen s.Takes now.cursor (now.perform move).2.cursor ∧
      ∀ d, (now.perform move).1 = .error d → (now.perform move).2.current = now.current) ∧
    (∀ t, now.advance.1 = .ok t → t = now.current) ∧
    (∀ t ∈ l.current :: l.produced moves, t.isEndOfFile = false → t.span.start < t.span.stop) ∧
    (l.current :: l.produced moves).Pairwise (fun t t' => t.span.stop ≤ t'.span.start) ∧
    (s.chars.length ≤ moves.length → now.atEnd = true) ∧
    (now.atEnd = true → now.current = .endOfFile s.endPosition ∧
      ∀ move, now.perform move = (.ok (move.given now.current), now)) := by
  intro now
  obtain ⟨o, hshows, hfirst, hmade, hlength⟩ := Lexer.shows_of_ofSource h
  obtain ⟨o', hnow, hpath⟩ := hshows.after moves
  obtain ⟨htokens, hpairwise⟩ := hshows.produced_ordered moves
  refine ⟨hmade.trans hpath, fun move => ⟨?_, fun d => Lexer.current_perform_of_error⟩, ?_, ?_, ?_,
    fun hmoves => ?_, fun hend => ⟨(hnow.ended hend).1, hnow.perform_of_atEnd hend⟩⟩
  · rw [Lexer.cursor_perform]
    exact hnow.stands.pull.1
  · intro t ht
    rw [Lexer.advance] at ht
    split at ht <;> cases ht
    rfl
  · exact List.forall_mem_cons.2 ⟨hfirst.not_empty, fun t ht => (htokens t ht).not_empty⟩
  · exact hpairwise.cons fun t ht => (htokens t ht).le_start
  · exact hshows.atEnd_after (hlength.imp_right fun hlt => Nat.lt_of_lt_of_le hlt hmoves)

/-- A character that means nothing and a character literal that is too long are passed. -/
theorem Source.lexer_progress_faults :
    let s := ofText "in" "a $ 'xy' b"
    let l : Lexer := ⟨⟨⟨1, 2⟩, " $ 'xy' b".toList⟩, ⟨.identifier "a", ⟨⟨1, 1⟩, ⟨1, 2⟩⟩⟩⟩
    let moves : List Lexer.Move :=
      [.next, .advance, .next, .advance, .next, .next, .next, .next, .next, .next]
    Lexer.ofSource s = .ok l ∧
    (l.perform .next).1 = .error (.lexical (.unexpectedCharacter '$') ⟨1, 3⟩) ∧
    (l.perform .next).2.current = l.current ∧
    (l.current :: l.produced moves).Pairwise (fun t t' => t.span.stop ≤ t'.span.start) ∧
    (l.after moves).atEnd = true := by
  intro s l moves
  have h : Lexer.ofSource s = .ok l := by decide +kernel
  have hfault : (l.perform .next).1 = .error (.lexical (.unexpectedCharacter '$') ⟨1, 3⟩) := by
    decide +kernel
  obtain ⟨-, -, -, -, hordered, hend, -⟩ := lexer_progress h moves
  obtain ⟨-, hmoves, -⟩ := lexer_progress h []
  exact ⟨h, hfault, (hmoves .next).2 _ hfault, hordered, hend (by decide +kernel)⟩

end Bucket
