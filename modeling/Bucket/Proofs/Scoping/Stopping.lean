/-
# Where declaring stops

When declaring a body finds a fault, it stops at one declaration, at some depth: its own name is taken,
or one of its own types is wrong (`Module.Refuses`). The module is then left as it is at that moment,
with no name of the classes around bound (`Module.StopsAt`). The part of the tree in front of that
declaration can be declared without a fault, and leads to the same methods and fields
(`Module.StopsAt.exists_front`).
-/
import Bucket.Proofs.Scoping.Growth

namespace Bucket

/-! ## In front of a declaration -/

/-- The part of a body in front of the declaration at an index, or of one inside the class there, at the
path behind the index. Of the classes around that declaration it holds what is in front of it. -/
def declarationsInFront (ds : List Declaration) (i : Nat) : List Nat → List Declaration
  | [] => ds.take i
  | j :: path =>
      match ds[i]? with
      | some (.classDef name body span) =>
          ds.take i ++ [.classDef name (declarationsInFront body j path) span]
      | _ => ds.take i

theorem declarationsInFront_succ (d : Declaration) (rest : List Declaration) (i : Nat)
    (path : List Nat) :
    declarationsInFront (d :: rest) (i + 1) path = d :: declarationsInFront rest i path := by
  cases path with
  | nil => rfl
  | cons j path =>
      rw [declarationsInFront, declarationsInFront, List.getElem?_cons_succ, List.take_succ_cons]
      split <;> rfl

namespace Module

variable {m m' : Module} {scope : ObjectId} {e : Diagnostic}

/-! ## The declaration at fault -/

/-- Whether a declaration cannot be begun in a class, and why: its name is taken there, or its own types
are at fault. -/
inductive Refuses (m : Module) (scope : ObjectId) : Declaration → Diagnostic → Prop where
  | taken {d : Declaration} :
      m.declares scope d.name → Refuses m scope d (.semantic (.redefinition d.name) d.span.start)
  | method {method : Method} {e : Diagnostic} :
      ¬ m.declares scope method.name → m.methodObject scope method = .error e →
      Refuses m scope (.method method) e
  | field {field : Field} {e : Diagnostic} :
      ¬ m.declares scope field.name → m.fieldObject scope field = .error e →
      Refuses m scope (.field field) e

/-- Whether declaring a body in a class stops at a declaration with a fault, and leaves a module. The
declaration stands at an index in the body, or inside the class there, at the path behind the index. -/
inductive StopsAt : ObjectId → Module → List Declaration → Nat → List Nat → Declaration →
    Diagnostic → Module → Prop where
  /-- The first declaration is refused, and nothing is changed. -/
  | here {scope : ObjectId} {m : Module} {d : Declaration} {rest : List Declaration}
      {e : Diagnostic} :
      m.Refuses scope d e → StopsAt scope m (d :: rest) 0 [] d e m
  /-- The first declaration is complete, and bound. -/
  | behind {scope child : ObjectId} {m m₁ m' : Module} {first d : Declaration}
      {rest : List Declaration} {i : Nat} {path : List Nat} {e : Diagnostic} :
      ¬ m.declares scope first.name → m.declare scope first = (.ok child, m₁) →
      StopsAt scope (m₁.bind scope first.name child) rest i path d e m' →
      StopsAt scope m (first :: rest) (i + 1) path d e m'
  /-- The first declaration is a class that has begun, and is not bound. -/
  | inside {scope : ObjectId} {m m' : Module} {name : String} {body rest : List Declaration}
      {span : Span} {d : Declaration} {i : Nat} {path : List Nat} {e : Diagnostic} :
      ¬ m.declares scope name →
      StopsAt m.size (m.add (.ofClass name (some scope) .empty)).2 body i path d e m' →
      StopsAt scope m (.classDef name body span :: rest) 0 (i :: path) d e m'

/-- Where no object can be made nothing is changed. -/
theorem addResult_of_error {result : Except Diagnostic Object}
    (h : (m.addResult result).1 = .error e) :
    result = .error e ∧ (m.addResult result).2 = m := by
  cases result with
  | ok o => cases h
  | error e' => exact ⟨congrArg Except.error (Except.error.inj h), rfl⟩

mutual

/-- A declaration that cannot be completed is refused itself, or stops at one inside it. -/
theorem exists_stopsAt_of_declare {m : Module} {scope : ObjectId} {e : Diagnostic} :
    (d : Declaration) → ¬ m.declares scope d.name → (m.declare scope d).1 = .error e →
      ∃ path d', ∀ rest, StopsAt scope m (d :: rest) 0 path d' e (m.declare scope d).2
  | .classDef name body span, hfree, h => by
      simp only [declare, fst_add] at h ⊢
      split at h
      · cases h
      · rename_i e' m' heq
        obtain rfl := Except.error.inj h
        obtain ⟨i, path, d', hstops⟩ := exists_stopsAt body (congrArg Prod.fst heq)
        rw [heq] at hstops
        exact ⟨i :: path, d', fun rest => .inside hfree hstops⟩
  | .method method, hfree, h => by
      rw [declare] at h ⊢
      obtain ⟨hresult, hsame⟩ := addResult_of_error h
      rw [hsame]
      exact ⟨[], _, fun rest => .here (.method hfree hresult)⟩
  | .field field, hfree, h => by
      rw [declare] at h ⊢
      obtain ⟨hresult, hsame⟩ := addResult_of_error h
      rw [hsame]
      exact ⟨[], _, fun rest => .here (.field hfree hresult)⟩

/-- Declaring a body with a fault stops at a declaration. -/
theorem exists_stopsAt {m : Module} {scope : ObjectId} {e : Diagnostic} :
    (ds : List Declaration) → (m.declareBody scope ds).1 = .error e →
      ∃ i path d, StopsAt scope m ds i path d e (m.declareBody scope ds).2
  | [], h => by cases h
  | d :: rest, h => by
      rw [declareBody] at h ⊢
      split
      case isTrue htaken =>
        rw [if_pos htaken] at h
        obtain rfl := Except.error.inj h
        exact ⟨0, [], d, .here (.taken htaken)⟩
      case isFalse hfree =>
        rw [if_neg hfree] at h
        split
        · rename_i child m₁ hdeclare
          rw [hdeclare] at h
          obtain ⟨i, path, d', hstops⟩ := exists_stopsAt rest h
          exact ⟨i + 1, path, d', .behind hfree hdeclare hstops⟩
        · rename_i e' m₁ hdeclare
          rw [hdeclare] at h
          obtain rfl := Except.error.inj h
          obtain ⟨path, d', hstops⟩ := exists_stopsAt_of_declare d hfree (congrArg Prod.fst hdeclare)
          rw [hdeclare] at hstops
          exact ⟨0, path, d', hstops rest⟩

end

/-! ## The part in front -/

/-- Whether a module holds the methods and fields of another one, in the same places, and as many
objects. -/
structure KeepsMembers (m m' : Module) : Prop where
  size_eq : m'.size = m.size
  members : ∀ id o, o.isClass = false → m.get? id = some o → m'.get? id = some o

theorem KeepsMembers.refl (m : Module) : m.KeepsMembers m := ⟨rfl, fun _ _ _ h => h⟩

/-- Only classes know names. -/
theorem KeepsMembers.bind (h : m.KeepsMembers m') (scope child : ObjectId) (name : String) :
    m.KeepsMembers (m'.bind scope name child) := by
  refine ⟨(size_bind scope child name m').trans h.size_eq, fun id o hclass ho => ?_⟩
  rw [get?_bind_of_some (h.members id o hclass ho)]
  cases o with
  | ofClass n parent scope => cases hclass
  | ofMethod n parent arguments returns => exact congrArg some (ite_self _)
  | ofField n parent type => exact congrArg some (ite_self _)

/-- What is in front of the declaration at which declaring stops is declared without a fault, and leads
to the same methods and fields. Only the classes around that declaration are bound, too. -/
theorem StopsAt.exists_front {ds : List Declaration} {i : Nat} {path : List Nat} {d : Declaration}
    (h : StopsAt scope m ds i path d e m') :
    ∃ m'', m.declareBody scope (declarationsInFront ds i path) = (.ok (), m'') ∧
      m'.KeepsMembers m'' := by
  induction h with
  | @here scope m d rest e _ => exact ⟨m, rfl, .refl m⟩
  | behind hfree hdeclare _ ih =>
      obtain ⟨m'', hfront, hkeeps⟩ := ih
      refine ⟨m'', ?_, hkeeps⟩
      rw [declarationsInFront_succ, declareBody, if_neg hfree, hdeclare]
      exact hfront
  | @inside scope m m' name body rest span d i path e hfree _ ih =>
      obtain ⟨m'', hfront, hkeeps⟩ := ih
      refine ⟨m''.bind scope name m.size, ?_, hkeeps.bind scope m.size name⟩
      rw [declarationsInFront, List.getElem?_cons_zero]
      simp only [List.take_zero, List.nil_append]
      rw [declareBody, declare]
      simp only [fst_add, hfront]
      exact if_neg hfree

end Module

end Bucket
