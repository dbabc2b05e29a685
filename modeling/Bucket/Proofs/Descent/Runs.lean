/-
# Answers of calls

That a call of a procedure has an answer, and that it leads to another call, are relations (`Runs`,
`Calls`): neither takes for granted that procedures come to an end. What all answers and all calls have in
common is shown for one script at a time (`Script.Ensures`), where each call in the script is known by
what is to be shown of its answers (`Runs.holds`, `Reaches.asked`).
-/
import Bucket.Proofs.Descent.Procedures

namespace Bucket.Parser

variable {α β : Type}

/-! ## Runs -/

/-- How a script ends: with an answer and the reader behind what it read, or with a fault. -/
abbrev Result (α : Type) := Except Diagnostic (α × Reader)

/-- Whether a script has a result where it is run on a reader. -/
inductive Runs : {α : Type} → Script α → Reader → Result α → Prop where
  | done {α : Type} {a : α} {r : Reader} : Runs (.done a) r (.ok (a, r))
  | fail {α : Type} {d : Diagnostic} {r : Reader} : Runs (.fail d : Script α) r (.error d)
  | look {α : Type} {rest : Token → Script α} {r : Reader} {res : Result α} :
      Runs (rest r.current) r res → Runs (.look rest) r res
  | next {α : Type} {rest : Script α} {r r' : Reader} {res : Result α} :
      r.next = .ok r' → Runs rest r' res → Runs (.next rest) r res
  | fault {α : Type} {rest : Script α} {r : Reader} {d : Diagnostic} :
      r.next = .error d → Runs (.next rest) r (.error d)
  | call {α : Type} {p : Procedure} {input : p.Input} {rest : p.Output → Script α} {r r' : Reader}
      {b : p.Output} {res : Result α} :
      Runs (p.script input) r (.ok (b, r')) → Runs (rest b) r' res → Runs (.call p input rest) r res
  | failure {α : Type} {p : Procedure} {input : p.Input} {rest : p.Output → Script α} {r : Reader}
      {d : Diagnostic} :
      Runs (p.script input) r (.error d) → Runs (.call p input rest) r (.error d)

/-- Whether a script, run on a reader, comes to make a call. The calls before it have answers. -/
inductive Reaches : Script α → Reader → Call → Prop where
  | here {p : Procedure} {input : p.Input} {rest : p.Output → Script α} {r : Reader} :
      Reaches (.call p input rest) r ⟨p, input, r⟩
  | look {rest : Token → Script α} {r : Reader} {c : Call} :
      Reaches (rest r.current) r c → Reaches (.look rest) r c
  | next {rest : Script α} {r r' : Reader} {c : Call} :
      r.next = .ok r' → Reaches rest r' c → Reaches (.next rest) r c
  | behind {p : Procedure} {input : p.Input} {rest : p.Output → Script α} {r r' : Reader}
      {b : p.Output} {c : Call} :
      Runs (p.script input) r (.ok (b, r')) → Reaches (rest b) r' c →
      Reaches (.call p input rest) r c

namespace Call

/-- What the procedure that is called does. -/
def script (c : Call) : Script c.procedure.Output := c.procedure.script c.input

/-- Whether a call has a result. -/
def Returns (c : Call) (res : Result c.procedure.Output) : Prop := Runs c.script c.reader res

/-- Whether a call leads to another one while it is answered. -/
def Calls (c c' : Call) : Prop := Reaches c.script c.reader c'

end Call

/-- A script has one result at most. -/
theorem Runs.unique {m : Script α} {r : Reader} {res res' : Result α} (h : Runs m r res)
    (h' : Runs m r res') : res = res' := by
  induction h with
  | done =>
      cases h'
      rfl
  | fail =>
      cases h'
      rfl
  | look _ ih =>
      cases h' with
      | look hrest => exact ih hrest
  | next hnext _ ih =>
      cases h' with
      | next hnext' hrest =>
          obtain rfl := Except.ok.inj (hnext.symm.trans hnext')
          exact ih hrest
      | fault hnext' => cases hnext.symm.trans hnext'
  | fault hnext =>
      cases h' with
      | next hnext' hrest => cases hnext.symm.trans hnext'
      | fault hnext' => rw [Except.error.inj (hnext.symm.trans hnext')]
  | call _ _ ihcall ihrest =>
      cases h' with
      | call hcall hrest =>
          obtain ⟨rfl, rfl⟩ := Prod.mk.inj (Except.ok.inj (ihcall hcall))
          exact ihrest hrest
      | failure hcall => cases ihcall hcall
  | failure _ ihcall =>
      cases h' with
      | call hcall hrest => cases ihcall hcall
      | failure hcall => rw [Except.error.inj (ihcall hcall)]

/-- A script has a result if all calls that it comes to make have results. -/
theorem exists_runs {m : Script α} {r : Reader} (h : ∀ c, Reaches m r c → ∃ res, c.Returns res) :
    ∃ res, Runs m r res := by
  induction m generalizing r with
  | done a => exact ⟨_, .done⟩
  | fail d => exact ⟨_, .fail⟩
  | look rest ih =>
      obtain ⟨res, hres⟩ := ih r.current fun c hc => h c (.look hc)
      exact ⟨res, .look hres⟩
  | next rest ih =>
      cases hnext : r.next with
      | error d => exact ⟨_, .fault hnext⟩
      | ok r' =>
          obtain ⟨res, hres⟩ := ih fun c hc => h c (.next hnext hc)
          exact ⟨res, .next hnext hres⟩
  | call p input rest ih =>
      obtain ⟨res, hcall⟩ := h _ .here
      cases res with
      | error d => exact ⟨_, .failure hcall⟩
      | ok answer =>
          obtain ⟨b, r'⟩ := answer
          obtain ⟨res, hres⟩ := ih b fun c hc => h c (.behind hcall hc)
          exact ⟨res, .call hcall hres⟩

/-! ## What scripts ensure -/

/-- What is said of a result: of an answer with the reader behind it, and of a fault. -/
structure Post (α : Type) where
  ok : α → Reader → Prop
  error : Diagnostic → Prop

/-- Whether what is said of a result is true of it. -/
def Post.Holds (Q : Post α) : Result α → Prop
  | .ok (a, r) => Q.ok a r
  | .error d => Q.error d

/-- What has to be known for a script, run on a reader, to end as is said. All its calls are as they are
asked to be, and of each call's result no more is known than what the call gives. -/
def Script.Ensures (asks : Call → Prop) (gives : (c : Call) → Post c.procedure.Output) :
    Script α → Reader → Post α → Prop
  | .done a, r, Q => Q.ok a r
  | .fail d, _, Q => Q.error d
  | .look rest, r, Q => (rest r.current).Ensures asks gives r Q
  | .next rest, r, Q => (∀ r', r.next = .ok r' → rest.Ensures asks gives r' Q) ∧
      ∀ d, r.next = .error d → Q.error d
  | .call p input rest, r, Q => asks ⟨p, input, r⟩ ∧
      (∀ b r', (gives ⟨p, input, r⟩).ok b r' → (rest b).Ensures asks gives r' Q) ∧
      ∀ d, (gives ⟨p, input, r⟩).error d → Q.error d

section Ensures

variable {asks : Call → Prop} {gives : (c : Call) → Post c.procedure.Output} {r : Reader}

/-- What each script ensures, if it is true of the calls in it, is true of all results. -/
theorem Runs.holds (h : ∀ c : Call, ∃ asks, c.script.Ensures asks gives c.reader (gives c))
    {m : Script α} {Q : Post α} {res : Result α} (hm : m.Ensures asks gives r Q)
    (hrun : Runs m r res) : Q.Holds res := by
  induction hrun generalizing asks with
  | done => exact hm
  | fail => exact hm
  | look _ ih => exact ih hm
  | next hnext _ ih => exact ih (hm.1 _ hnext)
  | fault hnext => exact hm.2 _ hnext
  | @call _ p input rest r r' b res _ _ ihcall ihrest =>
      obtain ⟨asks', hscript⟩ := h ⟨p, input, r⟩
      exact ihrest (hm.2.1 b r' (ihcall hscript))
  | @failure _ p input rest r d _ ihcall =>
      obtain ⟨asks', hscript⟩ := h ⟨p, input, r⟩
      exact hm.2.2 d (ihcall hscript)

/-- What each script asks is true of all calls. -/
theorem Reaches.asked (h : ∀ c : Call, ∃ asks, c.script.Ensures asks gives c.reader (gives c))
    {m : Script α} {Q : Post α} {c : Call} (hm : m.Ensures asks gives r Q) (hreach : Reaches m r c) :
    asks c := by
  induction hreach with
  | here => exact hm.1
  | look _ ih => exact ih hm
  | next hnext _ ih => exact ih (hm.1 _ hnext)
  | @behind p input rest r r' b c hcall _ ih =>
      obtain ⟨asks', hscript⟩ := h ⟨p, input, r⟩
      exact ih (hm.2.1 b r' (Runs.holds h hscript hcall))

namespace Script

theorem Ensures.imp {m : Script α} {Q Q' : Post α} (h : m.Ensures asks gives r Q)
    (hok : ∀ a r', Q.ok a r' → Q'.ok a r') (herror : ∀ d, Q.error d → Q'.error d) :
    m.Ensures asks gives r Q' := by
  induction m generalizing r with
  | done a => exact hok a r h
  | fail d => exact herror d h
  | look rest ih => exact ih _ h
  | next rest ih => exact ⟨fun r' hr' => ih (h.1 r' hr'), fun d hd => herror d (h.2 d hd)⟩
  | call p input rest ih =>
      exact ⟨h.1, fun b r' hb => ih b (h.2.1 b r' hb), fun d hd => herror d (h.2.2 d hd)⟩

/-- What is ensured for each of some indices is ensured for all of them at once. -/
theorem Ensures.forall {ι : Type} {m : Script α} {Q : ι → Post α}
    (h : ∀ i, m.Ensures (fun _ => True) gives r (Q i)) :
    m.Ensures (fun _ => True) gives r
      ⟨fun a r' => ∀ i, (Q i).ok a r', fun d => ∀ i, (Q i).error d⟩ := by
  induction m generalizing r with
  | done a => exact h
  | fail d => exact h
  | look rest ih => exact ih _ h
  | next rest ih =>
      exact ⟨fun r' hr' => ih fun i => (h i).1 r' hr', fun d hd i => (h i).2 d hd⟩
  | call p input rest ih =>
      exact ⟨trivial, fun b r' hb => ih b fun i => (h i).2.1 b r' hb, fun d hd i => (h i).2.2 d hd⟩

/-! ## Rules -/

variable {Q : Post α}

@[simp] theorem ensures_pure (a : α) : (pure a : Script α).Ensures asks gives r Q ↔ Q.ok a r := Iff.rfl

/-- What comes behind a script is run on the reader that the script leaves. -/
@[simp] theorem ensures_bind (m : Script β) (k : β → Script α) :
    (m >>= k).Ensures asks gives r Q ↔
      m.Ensures asks gives r ⟨fun b r' => (k b).Ensures asks gives r' Q, Q.error⟩ := by
  show (m.bind k).Ensures asks gives r Q ↔ _
  induction m generalizing r with
  | done b => exact Iff.rfl
  | fail d => exact Iff.rfl
  | look rest ih => exact ih _
  | next rest ih => exact and_congr (forall_congr' fun r' => imp_congr_right fun _ => ih) Iff.rfl
  | call p input rest ih =>
      exact and_congr_right fun _ => and_congr
        (forall_congr' fun b => forall_congr' fun r' => imp_congr_right fun _ => ih b) Iff.rfl

@[simp] theorem ensures_current {Q : Post Token} :
    current.Ensures asks gives r Q ↔ Q.ok r.current r := Iff.rfl

@[simp] theorem ensures_advance {Q : Post Unit} : advance.Ensures asks gives r Q ↔
    (∀ r', r.next = .ok r' → Q.ok () r') ∧ ∀ d, r.next = .error d → Q.error d := Iff.rfl

@[simp] theorem ensures_perform {p : Procedure} {input : p.Input} {Q : Post p.Output} :
    (perform p input).Ensures asks gives r Q ↔ asks ⟨p, input, r⟩ ∧
      (∀ b r', (gives ⟨p, input, r⟩).ok b r' → Q.ok b r') ∧
      ∀ d, (gives ⟨p, input, r⟩).error d → Q.error d := Iff.rfl

@[simp] theorem ensures_expected (e : Expectation) :
    (expected e : Script α).Ensures asks gives r Q ↔
      Q.error (.syntactic e.text r.current.kind.describe r.current.span.start) := Iff.rfl

/-- A token of one of some kinds is passed, and at any other token nothing happens. -/
theorem ensures_accept {kinds : List Token.Kind} {Q : Post (Option Span)} :
    (accept kinds).Ensures asks gives r Q ↔
      (r.current.kind ∈ kinds → (∀ r', r.next = .ok r' → Q.ok (some r.current.span) r') ∧
        ∀ d, r.next = .error d → Q.error d) ∧
      (r.current.kind ∉ kinds → Q.ok none r) := by
  rw [accept, ensures_bind, ensures_current]
  by_cases h : r.current.kind ∈ kinds
  · simp [h]
  · simp [h]

end Script

end Ensures

end Bucket.Parser
