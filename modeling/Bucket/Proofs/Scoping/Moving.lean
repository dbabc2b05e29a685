/-
# Objects of a program in other places

What a program declares does not depend on where its parts stand. When they are moved, the same objects
are added, and a fault is told where it then stands (`Module.declareBody_move`).
-/
import Bucket.Module.Declaring
import Bucket.Proofs.Parsing.Motion

namespace Bucket

/-- Steps, one after the other, tell a fault in its other place when each of them does. -/
theorem mapError_bind {ε α β : Type} (g : ε → ε) (x : Except ε α) (next : α → Except ε β) :
    (x >>= next).mapError g = x.mapError g >>= fun a => (next a).mapError g := by
  cases x <;> rfl

namespace Module

variable {f : Motion}

/-! ## Types -/

/-- A type means the same class in another place. -/
theorem lookupClass_move (m : Module) (scope : ObjectId) (type : Expression) :
    m.lookupClass scope (type.move f) = (m.lookupClass scope type).mapError (·.move f) := by
  rw [lookupClass, lookupClass, Expression.name?_move, Expression.span_move]
  cases type.name? with
  | none => rfl
  | some name =>
      dsimp only
      cases m.lookup scope name with
      | none => rfl
      | some id =>
          dsimp only
          split <;> rfl

theorem lookupArguments_move (m : Module) (scope : ObjectId) (as : List Argument) :
    m.lookupArguments scope (as.map (·.move f)) =
      (m.lookupArguments scope as).mapError (·.move f) := by
  induction as with
  | nil => rfl
  | cons a rest ih =>
      rw [List.map_cons, lookupArguments, lookupArguments, ih, mapError_bind,
        ← m.lookupClass_move scope a.type]
      refine congrArg _ (funext fun type => ?_)
      rw [mapError_bind]
      rfl

theorem lookupReturns_move (m : Module) (scope : ObjectId) (returns : Option Expression) :
    m.lookupReturns scope (returns.map (·.move f)) =
      (m.lookupReturns scope returns).mapError (·.move f) := by
  cases returns with
  | none => rfl
  | some type =>
      rw [Option.map_some, lookupReturns, lookupReturns, lookupClass_move]
      cases m.lookupClass scope type <;> rfl

/-- The object for a method does not depend on its place. -/
theorem methodObject_move (m : Module) (parent : ObjectId) (method : Method) :
    m.methodObject parent (method.move f) =
      (m.methodObject parent method).mapError (·.move f) := by
  rw [methodObject, methodObject, mapError_bind, ← lookupArguments_move]
  refine congrArg _ (funext fun arguments => ?_)
  rw [mapError_bind, ← lookupReturns_move]
  rfl

/-- The object for a field does not depend on its place. -/
theorem fieldObject_move (m : Module) (parent : ObjectId) (field : Field) :
    m.fieldObject parent (field.move f) = (m.fieldObject parent field).mapError (·.move f) := by
  rw [fieldObject, fieldObject, mapError_bind, ← lookupClass_move]
  rfl

theorem addResult_mapError (m : Module) (g : Diagnostic → Diagnostic)
    (result : Except Diagnostic Object) :
    m.addResult (result.mapError g) = (m.addResult result).map (·.mapError g) id := by
  cases result <;> rfl

/-! ## Declarations -/

mutual

/-- A declaration in another place adds the same objects. -/
theorem declare_move : ∀ (d : Declaration) (parent : ObjectId) (m : Module),
    m.declare parent (d.move f) = (m.declare parent d).map (·.mapError (·.move f)) id
  | .classDef name body _, parent, m => by
      simp only [Declaration.move, declare, declareBody_move body]
      rcases declareBody _ _ body with ⟨_ | _, m'⟩ <;> rfl
  | .method method, parent, m => by
      rw [Declaration.move, declare, declare, methodObject_move, addResult_mapError]
  | .field field, parent, m => by
      rw [Declaration.move, declare, declare, fieldObject_move, addResult_mapError]

/-- Declarations in other places add the same objects. -/
theorem declareBody_move : ∀ (ds : List Declaration) (scope : ObjectId) (m : Module),
    m.declareBody scope (moveDeclarations f ds) =
      (m.declareBody scope ds).map (·.mapError (·.move f)) id
  | [], _, _ => rfl
  | d :: rest, scope, m => by
      rw [moveDeclarations, declareBody, declareBody, d.name_move, d.span_move]
      split
      · rfl
      · rw [declare_move d]
        rcases declare _ _ d with ⟨_ | child, m'⟩
        · rfl
        · exact declareBody_move rest scope (m'.bind scope d.name child)

end

/-- A class without places has the same objects, and a fault in it is told at the beginning. -/
theorem analyze_bare (c : Class) : analyze c.bare = (analyze c).mapError (·.move .toFirst) := by
  have hbody : c.bare.body = moveDeclarations .toFirst c.body := bareDeclarations_eq_move c.body
  rw [analyze, analyze, show ofClass c.bare = ofClass c from rfl, init, init, hbody,
    declareBody_move]
  rcases declareBody _ _ c.body with ⟨_ | _, m⟩ <;> rfl

end Module

end Bucket
