/-
# Modules

A module owns the objects of a program. The first of them is the class of the module itself. A name is
looked up from a scope outward, and a type is a name that leads to a class.
-/
import Bucket.Diagnostic
import Bucket.Module.Object
import Bucket.Tree.Basic

namespace Bucket

/-- The objects of a program. -/
structure Module where
  objects : Array Object
  deriving DecidableEq

namespace Module

/-- The place of the class of the module itself. -/
def root : ObjectId := 0

/-- The module of a class in which nothing is declared yet. -/
def ofClass (c : Class) : Module := ⟨#[.ofClass c.name none .empty]⟩

/-- The number of objects. -/
def size (m : Module) : Nat := m.objects.size

/-- Whether there are no objects. -/
def isEmpty (m : Module) : Bool := m.objects.isEmpty

/-- The object at a place. -/
def get? (m : Module) (id : ObjectId) : Option Object := m.objects[id]?

/-! ## Growing -/

/-- The module with one object more, and the place of that. -/
def add (o : Object) (m : Module) : ObjectId × Module := (m.size, ⟨m.objects.push o⟩)

/-- Adds a name to the class at a place. -/
def bind (scope : ObjectId) (name : String) (id : ObjectId) (m : Module) : Module :=
  ⟨m.objects.modify scope (·.bind name id)⟩

@[simp] theorem fst_add (o : Object) (m : Module) : (m.add o).1 = m.size := rfl

@[simp] theorem size_add (o : Object) (m : Module) : (m.add o).2.size = m.size + 1 :=
  Array.size_push _

@[simp] theorem size_bind (scope id : ObjectId) (name : String) (m : Module) :
    (m.bind scope name id).size = m.size := Array.size_modify

/-- After an object is added it is found at its place, and all others at theirs. -/
theorem get?_add (o : Object) (m : Module) (id : ObjectId) :
    (m.add o).2.get? id = if id = m.size then some o else m.get? id :=
  Array.getElem?_push

/-- Adding a name to a class changes that class alone. -/
theorem get?_bind (scope child id : ObjectId) (name : String) (m : Module) :
    (m.bind scope name child).get? id =
      if scope = id then (m.get? id).map (·.bind name child) else m.get? id := by
  simp [get?, bind, Array.getElem?_modify]

/-! ## Looking up -/

/-- Whether the class at a place declares a name itself. -/
def declares (m : Module) (id : ObjectId) (name : String) : Bool :=
  ((m.get? id).bind (·.member? name)).isSome

/-- The object that a name stands for inside a scope: the one that the scope declares, or the one
that it stands for in the class around it. A class lies behind the one around it. -/
def lookup (m : Module) (scope : ObjectId) (name : String) : Option ObjectId :=
  match m.get? scope with
  | none => none
  | some o =>
      match o.member? name, o.parent? with
      | some id, _ => some id
      | none, some outer => if outer < scope then m.lookup outer name else none
      | none, none => none
termination_by scope

/-- The class that a type stands for inside a scope. Only plain names are types. -/
def lookupClass (m : Module) (scope : ObjectId) (type : Expression) : Except Diagnostic ObjectId :=
  match type.name? with
  | none => .error (.semantic .unsupportedType type.span.start)
  | some name =>
      match m.lookup scope name with
      | none => .error (.semantic (.unknownName name) type.span.start)
      | some id =>
          if (m.get? id).any (·.isClass) then .ok id
          else .error (.semantic (.notAClass name) type.span.start)

end Module

end Bucket
