/-
# Which fault is told

A text may have a fault in its words and one in the order of its tokens. The parser asks for the next
token only when it has a place for the one before, so it tells the fault that comes first: the first
token that it refuses, if there is one in front of the fault in the words, and that fault otherwise
(`Source.parse_of_tokens`). Which token it refuses depends on the tokens in front of the fault alone.
-/
import Bucket.Command.Run
import Bucket.Proofs.Grammar.Viable

namespace Bucket

namespace Parser.State

variable {s : State} {ts : List Token} {d : Diagnostic}

/-- Nothing is refused when all tokens can be read. -/
theorem refusal?_eq_none_iff : s.refusal? ts = none ↔ ∃ s', s.readTokens ts = some s' := by
  induction ts generalizing s with
  | nil => exact ⟨fun _ => ⟨s, rfl⟩, fun _ => rfl⟩
  | cons t rest ih =>
      rw [refusal?, readTokens_cons]
      cases hstep : s.step t with
      | some s' => exact ih
      | none => simp

/-- What is refused is the first token that cannot be read, behind those that can. -/
theorem refusal?_eq_some_iff :
    s.refusal? ts = some d ↔ ∃ before t after s', ts = before ++ t :: after ∧
      s.readTokens before = some s' ∧ s'.step t = none ∧ d = s'.diagnostic t := by
  induction ts generalizing s with
  | nil => simp [refusal?]
  | cons u rest ih =>
      rw [refusal?]
      constructor
      · intro h
        cases hstep : s.step u with
        | none =>
            rw [hstep] at h
            exact ⟨[], u, rest, s, rfl, rfl, hstep, (Option.some.inj h).symm⟩
        | some s' =>
            rw [hstep] at h
            obtain ⟨before, t, after, s'', rfl, hbefore, hnone, hd⟩ := ih.1 h
            refine ⟨u :: before, t, after, s'', rfl, ?_, hnone, hd⟩
            rw [readTokens_cons, hstep]
            exact hbefore
      · rintro ⟨before, t, after, s', hsplit, hbefore, hnone, rfl⟩
        -- Either the token is refused at once, or the first one is read.
        cases before with
        | nil =>
            obtain ⟨rfl, rfl⟩ := List.cons.inj hsplit
            obtain rfl := Option.some.inj hbefore
            rw [hnone]
        | cons v before =>
            obtain ⟨rfl, rfl⟩ := List.cons.inj hsplit
            rw [readTokens_cons] at hbefore
            obtain ⟨s'', hstep, hbefore⟩ := Option.bind_eq_some_iff.1 hbefore
            rw [hstep]
            exact ih.2 ⟨before, t, after, s', rfl, hbefore, hnone, rfl⟩

end Parser.State

open Bucket.Parser (State)

/-- The fault in the words that ends the tokens of a text is a lexical one. -/
theorem Cursor.exists_of_stop_error {c : Cursor} {d : Diagnostic} (h : c.tokens.stop = .error d) :
    ∃ fault place, d = .lexical fault place := by
  fun_induction tokens c with
  | case1 c d' next hpull =>
      obtain rfl := Except.error.inj h
      exact exists_of_pull_error hpull
  | case2 c t next hpull ht => cases h
  | case3 c t next hpull ht ih => exact ih h

/-- A source without faults in its words is parsed as the list of its tokens. -/
theorem Source.parse_of_toExcept {s : Source} {ts : List Token}
    (h : s.tokens.toExcept = .ok ts) : s.parse = State.initial.runTokens s.endPosition ts := by
  obtain ⟨e, htokens⟩ := Tokens.exists_of_toExcept h
  have hrun := State.initial.run_eq_tokens s.cursor
  rw [show s.cursor.tokens = s.tokens from rfl] at hrun
  have hend : e = s.endPosition := Cursor.stop_eq_endPosition (congrArg Tokens.stop htokens)
  rw [← hend]
  rwa [htokens] at hrun

/-- A source with a fault in its words has no module. What is told depends on that fault and on the
tokens in front of it. -/
theorem Source.parse_of_fault {s : Source} {d : Diagnostic} (h : s.tokens.stop = .error d) :
    s.parse = .error ((State.initial.refusal? s.tokens.tokens).getD d) := by
  have hrun := State.initial.run_eq_tokens s.cursor
  rw [show s.cursor.tokens = s.tokens from rfl, h] at hrun
  exact hrun

/-- A source without faults in its words is parsed as the list of its tokens, with the end of the file
behind them. If there is a fault, the source is neither parsed nor compiled, and the tokens in front of
the fault decide what is told: the fault itself exactly when all these tokens can be read, and
otherwise the syntax error at the first of them that is refused. What cannot be parsed is not compiled,
for the same reason. -/
theorem Source.parse_of_tokens (s : Source) :
    (∀ ts, s.tokens.toExcept = .ok ts → s.parse = State.initial.runTokens s.endPosition ts) ∧
    (∀ d, s.tokens.stop = .error d →
      let refusal := State.initial.refusal? s.tokens.tokens
      s.parse = .error (refusal.getD d) ∧
      Command.compile s = ⟨"", some (refusal.getD d)⟩ ∧
      (s.parse = .error d ↔ ∃ s', State.initial.readTokens s.tokens.tokens = some s') ∧
      ∀ e, refusal = some e ↔ ∃ before t after s', s.tokens.tokens = before ++ t :: after ∧
        State.initial.readTokens before = some s' ∧ s'.step t = none ∧
        e = .syntactic (s'.expected t.kind).text t.kind.describe t.span.start) ∧
    ∀ e, s.parse = .error e → Command.compile s = ⟨"", some e⟩ := by
  have hcompile : ∀ e, s.parse = .error e → Command.compile s = ⟨"", some e⟩ := by
    intro e he
    rw [Command.compile, he]
  refine ⟨fun ts hts => parse_of_toExcept hts, fun d hd => ?_, hcompile⟩
  have hparse := parse_of_fault hd
  refine ⟨hparse, hcompile _ hparse, ?_, fun e => State.refusal?_eq_some_iff⟩
  rw [hparse, ← State.refusal?_eq_none_iff]
  cases hrefusal : State.initial.refusal? s.tokens.tokens with
  | none => exact ⟨fun _ => rfl, fun _ => rfl⟩
  | some e =>
      -- What is refused is told as a syntax error, so it is not the fault in the words.
      obtain ⟨fault, place, rfl⟩ := Cursor.exists_of_stop_error hd
      obtain ⟨before, t, after, s', -, -, -, rfl⟩ := State.refusal?_eq_some_iff.1 hrefusal
      constructor
      · intro h
        cases Except.error.inj h
      · intro h
        cases h

/-- A number where a name must stand hides the fault behind it, and a missing name does not. -/
theorem Source.parse_of_tokens_class :
    (Source.ofText "in" "class 1 $").parse =
      .error (.syntactic "class name" "integer 1" ⟨1, 7⟩) ∧
    (Source.ofText "in" "class $").parse =
      .error (.lexical (.unexpectedCharacter '$') ⟨1, 7⟩) := by
  constructor
  · have hstop : (Source.ofText "in" "class 1 $").tokens.stop =
        .error (.lexical (.unexpectedCharacter '$') ⟨1, 9⟩) := by
      decide +kernel
    rw [((Source.parse_of_tokens _).2.1 _ hstop).1]
    refine congrArg Except.error ?_
    decide +kernel
  · have hstop : (Source.ofText "in" "class $").tokens.stop =
        .error (.lexical (.unexpectedCharacter '$') ⟨1, 7⟩) := by
      decide +kernel
    rw [((Source.parse_of_tokens _).2.1 _ hstop).1]
    refine congrArg Except.error ?_
    decide +kernel

end Bucket
