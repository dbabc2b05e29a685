/-
# Where syntax errors are

A parser stops at the first token that no program has there. The tokens in front of it begin some
program, since every state can be completed, and with that token they begin none
(`Source.viable_prefix`).
-/
import Bucket.Proofs.Grammar.Completion
import Bucket.Proofs.Grammar.Parsing
import Bucket.Proofs.Lexing.Spaced

namespace Bucket

/-! ## The tokens that are seen -/

/-- The tokens that a parser may see: those in front of the first fault in the words or, when there is
none, all of them and the end of the file. -/
def Tokens.stream (ts : Tokens) : List Token :=
  match ts.stop with
  | .ok e => ts.tokens ++ [.endOfFile e]
  | .error _ => ts.tokens

theorem Tokens.stream_cons (t : Token) (ts : Tokens) : (ts.cons t).stream = t :: ts.stream := by
  obtain ⟨tokens, stop⟩ := ts
  cases stop <;> rfl

namespace Cursor

/-- What is wrong with a token is wrong with its word. -/
theorem exists_of_pull_error {c next : Cursor} {d : Diagnostic} (h : c.pull = (.error d, next)) :
    ∃ fault place, d = .lexical fault place := by
  fun_induction pull c with
  | case1 c => simp at h
  | case2 c l hl k hk => simp at h
  | case3 c l hl _ ih => exact ih h
  | case4 c l hl fault offset =>
      obtain ⟨hd, -⟩ := Prod.mk.inj h
      exact ⟨fault, _, (Except.error.inj hd).symm⟩

end Cursor

namespace Parser

/-! ## Where a parser stops -/

/-- Whether the tokens of a cursor are read from a state up to the one at a place, which can be
written in front of it and cannot be read. At the end of the file no program may end. -/
def State.StopsAt (s : State) (c : Cursor) (place : Position) : Prop :=
  ∃ before t after s', c.tokens.stream = before ++ t :: after ∧ t.span.start = place ∧
    (∀ u ∈ before, u.kind.isWritable = true) ∧
    s.bare.reads (before.map (·.kind)) = some s' ∧ s'.step t.bare = none ∧
    (t.isEndOfFile → s'.endLine.module? .first = none)

/-- A syntax error is where a parser stops. -/
theorem State.stopsAt_of_run {s : State} {c : Cursor} {expected found : String} {place : Position}
    (h : s.run c = .error (.syntactic expected found place)) : s.StopsAt c place := by
  fun_induction State.run s c with
  | case1 s c d next hpull =>
      obtain ⟨fault, place', rfl⟩ := Cursor.exists_of_pull_error hpull
      simp at h
  | case2 s c t next hpull ht =>
      have hend := Cursor.eq_endOfFile_of_pull hpull ht
      have hmodule := s.module?_bare t.span.stop
      unfold finish at h
      split at h
      case h_1 => cases h
      case h_2 hnone =>
        rw [hnone, Option.map_none] at hmodule
        refine ⟨[], t, [], s.bare, ?_, ?_, by simp, rfl, ?_, fun _ => hmodule.symm⟩
        · rw [Cursor.tokens_of_end hpull ht, Tokens.stream]
          exact congrArg (fun u => [u]) hend.symm
        · simp only [diagnostic, Except.error.injEq, Diagnostic.syntactic.injEq] at h
          exact h.2.2
        · rw [hend]
          exact s.bare.step_endOfFile _
  | case3 s c t next hpull ht s' hstep ih =>
      obtain ⟨before, u, after, s'', hstream, hplace, hwritable, hreads, hnone, hend⟩ := ih h
      refine ⟨t :: before, u, after, s'', ?_, hplace, ?_, ?_, hnone, hend⟩
      · rw [Cursor.tokens_of_pull hpull (by simpa using ht), Tokens.stream_cons, hstream]
        rfl
      · -- The parser has seen what stands behind the token, so there is no fault.
        have ht' : t.kind.isWritable = true := by
          refine Cursor.isWritable_of_pull hpull ht fun d c' hfault => ?_
          obtain ⟨fault, place', rfl⟩ := Cursor.exists_of_pull_error hfault
          rw [State.run] at h
          split at h <;> simp_all
        intro v hv
        rcases List.mem_cons.1 hv with rfl | hv
        · exact ht'
        · exact hwritable v hv
      · have hbare := s.step_bare t
        rw [hstep, Option.map_some] at hbare
        rw [List.map_cons, reads_cons, ← show t.bare = ⟨t.kind, .first⟩ from rfl, ← hbare]
        exact hreads
  | case4 s c t next hpull ht hstep =>
      have hbare := s.step_bare t
      rw [hstep, Option.map_none] at hbare
      refine ⟨[], t, next.tokens.stream, s.bare, ?_, ?_, by simp, rfl, hbare.symm,
        fun h => absurd h ht⟩
      · rw [Cursor.tokens_of_pull hpull (by simpa using ht), Tokens.stream_cons]
        rfl
      · simp only [diagnostic, Except.error.injEq, Diagnostic.syntactic.injEq] at h
        exact h.2.2

/-- Where a parser stops, what it has read begins a program that some text holds. -/
theorem exists_program_of_reads {kinds : List Token.Kind} {s : State}
    (hkinds : ∀ k ∈ kinds, k.isWritable = true) (h : State.initial.reads kinds = some s) :
    ∃ program c, Source.parse program = .ok c ∧
      Grammar.Program program.kinds c.bare.body ∧ kinds <+: program.kinds := by
  obtain ⟨more, m, hmore, hm⟩ := s.completable
  obtain ⟨text, htext⟩ := exists_spaced (kinds ++ more)
  have hlexes : Lexes text (kinds ++ more) := htext.lexes fun k hk =>
    (List.mem_append.1 hk).elim (hkinds k) (hmore k)
  have hchars : (Source.ofText "" (String.ofList text)).chars = text := by
    rw [Source.chars, Source.ofText, String.toList_ofList, String.toList_ofList,
      hlexes.dropByteOrderMark]
  rw [← hchars] at hlexes
  have hread : readModule? (kinds ++ more) = some m := by
    rw [readModule?, State.reads_append, h]
    exact hm
  have hparse := Source.parse_of_lexes hlexes
  rw [hread] at hparse
  obtain ⟨c, hc, rfl⟩ := Option.map_eq_some_iff.1 hparse
  obtain ⟨ds, hds⟩ := exists_of_readModule? hread
  have hprogram : Grammar.Program (kinds ++ more) c.bare.body := by
    rw [hds]
    exact readModule?_eq_some_iff.1 (hds ▸ hread)
  refine ⟨_, c, eq_ok_of_toOption hc, ?_, ?_⟩
  · rw [Source.kinds_of_lexes hlexes]
    exact hprogram
  · rw [Source.kinds_of_lexes hlexes]
    exact List.prefix_append kinds more

/-- What a state refuses, no program has behind the tokens that lead to the state. -/
theorem not_prefix_of_step {kinds program : List Token.Kind} {ds : List Declaration} {s : State}
    {k : Token.Kind} (h : State.initial.reads kinds = some s) (hstep : s.step ⟨k, .first⟩ = none)
    (hend : k.isEndOfFile → s.endLine.module? .first = none)
    (hprogram : Grammar.Program program ds) :
    ¬ kinds ++ [k] <+: program ++ [.symbol .endOfFile] := by
  rintro ⟨after, hafter⟩
  have hread := readModule?_eq_some_iff.2 hprogram
  -- Either the refused token is the end of the file, or it lies in the program.
  rcases List.eq_nil_or_concat after with rfl | ⟨more, last, rfl⟩
  · rw [List.append_nil] at hafter
    obtain ⟨rfl, hk⟩ := List.append_inj' hafter rfl
    obtain rfl := List.singleton_inj.1 hk
    rw [readModule?, h, Option.bind_some, hend rfl] at hread
    cases hread
  · rw [List.concat_eq_append, ← List.append_assoc] at hafter
    obtain ⟨rfl, -⟩ := List.append_inj' hafter rfl
    rw [readModule?, List.append_assoc, State.reads_append, h, Option.bind_some,
      List.singleton_append, State.reads_cons, hstep] at hread
    cases hread

end Parser

/-- The place of a syntax error is where a token of the text begins, or the end of the file. The tokens
in front of it are the beginning of a program that a text holds. With it they are the beginning of
none, and at the end of the file they are none themselves. -/
theorem Source.viable_prefix {s : Source} {expected found : String} {place : Position}
    (h : s.parse = .error (.syntactic expected found place)) :
    ∃ before t after, s.tokens.stream = before ++ t :: after ∧ t.span.start = place ∧
      (∃ program c, Source.parse program = .ok c ∧
        Grammar.Program program.kinds c.bare.body ∧ before.map (·.kind) <+: program.kinds) ∧
      ∀ kinds ds, Grammar.Program kinds ds →
        ¬ (before ++ [t]).map (·.kind) <+: kinds ++ [.symbol .endOfFile] := by
  obtain ⟨before, t, after, s', hstream, hplace, hwritable, hreads, hstep, hend⟩ :=
    Parser.State.stopsAt_of_run h
  refine ⟨before, t, after, hstream, hplace, ?_, ?_⟩
  · refine Parser.exists_program_of_reads (fun k hk => ?_) hreads
    obtain ⟨u, hu, rfl⟩ := List.mem_map.1 hk
    exact hwritable u hu
  · intro kinds ds hprogram
    rw [List.map_append]
    exact Parser.not_prefix_of_step hreads hstep hend hprogram

/-- Behind a comparison no further one may stand, so the second sign is where the error is. -/
theorem Source.viable_prefix_comparison : ∃ expected found,
    (Source.ofText "in" "method m\n a < b < c\nend\n").parse =
      .error (.syntactic expected found ⟨2, 8⟩) ∧
    ∃ before t after, (Source.ofText "in" "method m\n a < b < c\nend\n").tokens.stream =
        before ++ t :: after ∧ t.span.start = ⟨2, 8⟩ ∧
      (∃ program c, Source.parse program = .ok c ∧
        Grammar.Program program.kinds c.bare.body ∧ before.map (·.kind) <+: program.kinds) ∧
      ∀ kinds ds, Grammar.Program kinds ds →
        ¬ (before ++ [t]).map (·.kind) <+: kinds ++ [.symbol .endOfFile] := by
  have hfault : (Source.ofText "in" "method m\n a < b < c\nend\n").parse.map (fun _ => ()) =
      .error (.syntactic "newline" "symbol '<'" ⟨2, 8⟩) := by
    decide +kernel
  cases hparse : (Source.ofText "in" "method m\n a < b < c\nend\n").parse with
  | ok c =>
      rw [hparse] at hfault
      cases hfault
  | error d =>
      rw [hparse] at hfault
      obtain rfl := Except.error.inj hfault
      exact ⟨_, _, rfl, Source.viable_prefix hparse⟩

end Bucket
