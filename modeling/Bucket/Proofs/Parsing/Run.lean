/-
# Parsing the tokens of a text

A parser that reads tokens one at a time answers as one that has all of them (`State.run_eq_tokens`).
It succeeds exactly when the text has no fault and its tokens are a program (`State.run_eq_ok_iff`).
So which tree a source holds, apart from places, depends on the kinds of its tokens alone
(`Source.parse_of_lexes`).
-/
import Bucket.Parser.Basic
import Bucket.Proofs.Lexing.Tokens
import Bucket.Proofs.Parsing.Erasure

namespace Bucket

namespace Parser

/-! ## The end of the file -/

/-- No expression goes on with the end of the file, and it hands none on. -/
theorem Context.deliver_endOfFile (c : Context) (e : Expression) (span : Span) :
    c.deliver e ⟨.symbol .endOfFile, span⟩ = none := by
  cases c with
  | slot s => cases s <;> rfl
  | group opener waiting outer => rfl
  | arguments call waiting outer =>
      obtain ⟨brackets, receiver, method, arguments⟩ := call
      cases brackets <;> rfl

theorem stepOperand_endOfFile (waiting : List Waiting) (c : Context) (span : Span) :
    stepOperand waiting c ⟨.symbol .endOfFile, span⟩ = none := by
  cases c with
  | arguments call outerWaiting outer => simp [stepOperand, PrefixOp.ofKind?, closeEmpty]
  | _ => rfl

/-- No state reads the end of the file as a token. -/
theorem State.step_endOfFile (s : State) (span : Span) :
    s.step ⟨.symbol .endOfFile, span⟩ = none := by
  cases s with
  | operand waiting context => exact stepOperand_endOfFile waiting context span
  | pending p waiting context => exact context.deliver_endOfFile _ span
  | _ => rfl

/-! ## One token -/

/-- The next token decides how a parser goes on. -/
theorem State.run_eq (s : State) (c : Cursor) :
    s.run c = match c.pull with
      | (.error d, _) => .error d
      | (.ok t, next) =>
          if t.isEndOfFile then s.finish t
          else
            match s.step t with
            | some s' => s'.run next
            | none => .error (s.diagnostic t) := by
  rw [State.run]
  split
  case h_1 h => rw [h]
  case h_2 h => exact h ▸ rfl

/-- Cursors that read the same are read in the same way. -/
theorem State.run_congr (s : State) {c c' : Cursor} (h : c.pull = c'.pull) : s.run c = s.run c' := by
  rw [run_eq, h, ← run_eq]

/-- A token that can be read leads to the next state. -/
theorem State.run_of_pull {s s' : State} {c next : Cursor} {t : Token} (h : c.pull = (.ok t, next))
    (ht : t.isEndOfFile = false) (hstep : s.step t = some s') : s.run c = s'.run next := by
  rw [run_eq, h]
  simp only [ht, hstep]
  rfl

/-! ## All tokens -/

/-- The state after some tokens, if they can all be read. -/
def State.readTokens (s : State) (ts : List Token) : Option State := ts.foldlM State.step s

@[simp] theorem State.readTokens_nil (s : State) : s.readTokens [] = some s := rfl

@[simp] theorem State.readTokens_cons (s : State) (t : Token) (ts : List Token) :
    s.readTokens (t :: ts) = (s.step t).bind (·.readTokens ts) := by
  simp [readTokens]

theorem State.readTokens_append (s : State) (a b : List Token) :
    s.readTokens (a ++ b) = (s.readTokens a).bind (·.readTokens b) := by
  simp [readTokens]

/-- A program is read to its last token, and may end there. -/
theorem State.exists_readTokens_of_runTokens {s : State} {fileEnd : Position} {ts : List Token}
    {c : Class} (h : s.runTokens fileEnd ts = .ok c) :
    ∃ s', s.readTokens ts = some s' ∧ s'.endLine.module? fileEnd = some c := by
  induction ts generalizing s with
  | nil =>
      refine ⟨s, rfl, ?_⟩
      rw [State.runTokens, State.finish] at h
      split at h
      · rename_i hmodule
        rw [← Except.ok.inj h]
        exact hmodule
      · cases h
  | cons t rest ih =>
      rw [State.runTokens] at h
      cases hstep : s.step t with
      | none =>
          rw [hstep] at h
          cases h
      | some next =>
          rw [hstep] at h
          obtain ⟨s', hread, hmodule⟩ := ih h
          exact ⟨s', by rw [State.readTokens_cons, hstep]; exact hread, hmodule⟩

/-- The diagnostic for the first of some tokens that cannot be read, if there is one. -/
def State.refusal? (s : State) : List Token → Option Diagnostic
  | [] => none
  | t :: rest =>
      match s.step t with
      | some s' => s'.refusal? rest
      | none => some (s.diagnostic t)

/-- A parser that reads tokens one at a time answers as one that has all of them. Of a fault behind
the tokens it only hears when it has read them all. -/
theorem State.run_eq_tokens (s : State) (c : Cursor) :
    s.run c = match c.tokens.stop with
      | .ok e => s.runTokens e c.tokens.tokens
      | .error d => .error ((s.refusal? c.tokens.tokens).getD d) := by
  -- Along the tokens as they are read, each by the cursor that the one before has left.
  fun_induction State.run s c with
  | case1 s c d next hpull =>
      rw [Cursor.tokens_of_fault hpull]
      rfl
  | case2 s c t next hpull ht =>
      rw [Cursor.tokens_of_end hpull ht]
      dsimp only
      rw [runTokens, ← Cursor.eq_endOfFile_of_pull hpull ht]
  | case3 s c t next hpull ht s' hstep ih =>
      rw [ih, Cursor.tokens_of_pull hpull (by simpa using ht), Tokens.cons]
      simp only [runTokens, refusal?, hstep]
  | case4 s c t next hpull ht hstep =>
      rw [Cursor.tokens_of_pull hpull (by simpa using ht), Tokens.cons]
      simp only [runTokens, refusal?, hstep]
      cases next.tokens.stop <;> rfl

/-- Reading tokens one at a time succeeds when there is no fault among them and reading them all at
once does. -/
theorem State.run_eq_ok_iff {s : State} {c : Cursor} {m : Class} :
    s.run c = .ok m ↔ ∃ ts e, c.tokens = ⟨ts, .ok e⟩ ∧ s.runTokens e ts = .ok m := by
  rw [run_eq_tokens]
  cases htokens : c.tokens with
  | mk ts stop =>
      cases stop with
      | error d => simp
      | ok e =>
          constructor
          · exact fun h => ⟨ts, e, rfl, h⟩
          · rintro ⟨ts', e', h, hrun⟩
            obtain ⟨rfl, he⟩ := Tokens.mk.inj h
            obtain rfl := Except.ok.inj he
            exact hrun

end Parser

/-- What has a value is no error. -/
theorem eq_ok_of_toOption {ε α : Type} {x : Except ε α} {a : α} (h : x.toOption = some a) :
    x = .ok a := by
  cases x with
  | ok b => exact congrArg _ (Option.some.inj h)
  | error e => simp [Except.toOption] at h

/-- What has no value is an error. -/
theorem exists_error_of_toOption {ε α : Type} {x : Except ε α} (h : x.toOption = none) :
    ∃ e, x = .error e := by
  cases x with
  | ok b => simp [Except.toOption] at h
  | error e => exact ⟨e, rfl⟩

/-- The kinds of the tokens of a source. -/
def Source.kinds (s : Source) : List Token.Kind := s.tokens.tokens.map (·.kind)

/-- A source that holds a module has no fault in its words. -/
theorem Source.exists_stop_of_parse {s : Source} {m : Class} (h : s.parse = .ok m) :
    ∃ e, s.tokens.stop = .ok e := by
  obtain ⟨ts, e, htokens, -⟩ := Parser.State.run_eq_ok_iff.1 h
  exact ⟨e, by rw [Source.tokens, htokens]⟩

/-- What a source without faults in its words holds, apart from places, is what the kinds of its
tokens are read as. -/
theorem Source.parse_of_stop {s : Source} {e : Position} (h : s.tokens.stop = .ok e) :
    s.parse.toOption.map Class.bare = Parser.readModule? s.kinds := by
  have htokens : s.cursor.tokens = ⟨s.tokens.tokens, .ok e⟩ := by
    rw [← h]
    rfl
  have hbare := Parser.State.initial.runTokens_bare e s.tokens.tokens
  rw [Parser.readModule?, Source.kinds]
  refine Eq.trans ?_ hbare
  -- Reading them one at a time and all at once succeed together.
  cases hrun : Parser.State.initial.runTokens e s.tokens.tokens with
  | ok m =>
      have : s.parse = .ok m := Parser.State.run_eq_ok_iff.2 ⟨_, e, htokens, hrun⟩
      rw [this]
  | error d =>
      cases hparse : s.parse with
      | error d' => rfl
      | ok m =>
          obtain ⟨ts, e', htokens', hrun'⟩ := Parser.State.run_eq_ok_iff.1 hparse
          obtain ⟨rfl, he⟩ := Tokens.mk.inj (htokens.symm.trans htokens')
          obtain rfl := Except.ok.inj he
          rw [hrun] at hrun'
          simp at hrun'

/-- The tokens of a text that is read as tokens of given kinds. -/
theorem Source.kinds_of_lexes {s : Source} {kinds : List Token.Kind} (h : Lexes s.chars kinds) :
    s.kinds = kinds := by
  obtain ⟨ts, e, htokens, hkinds⟩ := h .first
  rw [Source.kinds, Source.tokens, Source.cursor, Cursor.ofChars, htokens, ← hkinds]

/-- A text that is read as tokens of given kinds holds what these are read as. -/
theorem Source.parse_of_lexes {s : Source} {kinds : List Token.Kind} (h : Lexes s.chars kinds) :
    s.parse.toOption.map Class.bare = Parser.readModule? kinds := by
  obtain ⟨ts, e, htokens, -⟩ := h .first
  have hstop : s.tokens.stop = .ok e := by
    rw [Source.tokens, Source.cursor, Cursor.ofChars, htokens]
  rw [Source.parse_of_stop hstop, Source.kinds_of_lexes h]

end Bucket
