/-
# Declaring

Declarations are taken in their order, and each may only use names that were declared before it. A
class can be seen from inside its own body only once the body is complete. When a declaration is at
fault, what was declared before it stays.
-/
import Bucket.Module.Basic

namespace Bucket.Module

/-! ## Types -/

/-- The arguments of a method with their classes, from left to right up to the first fault. -/
def lookupArguments (m : Module) (scope : ObjectId) :
    List Argument → Except Diagnostic (List (String × ObjectId))
  | [] => .ok []
  | a :: rest => do
      let type ← m.lookupClass scope a.type
      let others ← m.lookupArguments scope rest
      return (a.name, type) :: others

/-- The class of the result of a method, if it has one. -/
def lookupReturns (m : Module) (scope : ObjectId) :
    Option Expression → Except Diagnostic (Option ObjectId)
  | none => .ok none
  | some type => (m.lookupClass scope type).map some

/-- The object for a method, or the first fault in the types of its first line. -/
def methodObject (m : Module) (parent : ObjectId) (method : Method) : Except Diagnostic Object := do
  let arguments ← m.lookupArguments parent method.arguments
  let returns ← m.lookupReturns parent method.returns
  return .ofMethod method.name parent arguments returns

/-- The object for a field, or the fault in its type. -/
def fieldObject (m : Module) (parent : ObjectId) (field : Field) : Except Diagnostic Object := do
  let type ← m.lookupClass parent field.type
  return .ofField field.name parent type

/-- Two steps, one after the other, give a value when the first one does and the second one does from
there. -/
theorem exists_of_bind_ok {ε α β : Type} {x : Except ε α} {f : α → Except ε β} {b : β}
    (h : (x >>= f) = .ok b) : ∃ a, x = .ok a ∧ f a = .ok b := by
  cases x with
  | ok a => exact ⟨a, rfl, h⟩
  | error e => cases h

/-- Adds an object if there was no fault. -/
def addResult (m : Module) : Except Diagnostic Object → Except Diagnostic ObjectId × Module
  | .ok o => (.ok (m.add o).1, (m.add o).2)
  | .error d => (.error d, m)

/-! ## Declarations -/

mutual

/-- Adds the object for a declaration in a class, and all that it declares inside. -/
def declare (parent : ObjectId) (m : Module) :
    Declaration → Except Diagnostic ObjectId × Module
  | .classDef name body _ =>
      let (child, m) := m.add (.ofClass name (some parent) .empty)
      match declareBody child m body with
      | (.ok _, m) => (.ok child, m)
      | (.error d, m) => (.error d, m)
  | .method method => m.addResult (m.methodObject parent method)
  | .field field => m.addResult (m.fieldObject parent field)

/-- Declares what the body of a class holds. A name is known once its declaration is complete, and
may be declared once. -/
def declareBody (id : ObjectId) (m : Module) : List Declaration → Except Diagnostic Unit × Module
  | [] => (.ok (), m)
  | d :: rest =>
      if m.declares id d.name then
        (.error (.semantic (.redefinition d.name) d.span.start), m)
      else
        match declare id m d with
        | (.ok child, m) => declareBody id (m.bind id d.name child) rest
        | (.error e, m) => (.error e, m)

end

/-! ## Modules -/

/-- Declares the body of a class in the module itself. -/
def init (c : Class) (m : Module) : Except Diagnostic Unit × Module := declareBody root m c.body

/-- The module of a program. -/
def analyze (c : Class) : Except Diagnostic Module :=
  match (ofClass c).init c with
  | (.ok _, m) => .ok m
  | (.error d, _) => .error d

end Bucket.Module
