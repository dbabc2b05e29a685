/-
# Objects

Every class, method and field of a program is an object. Objects lie in one list and are referred to
by their place in it. A class is a scope: it knows the names that are declared directly in its body.
-/

namespace Bucket

/-- The place of an object in its module. -/
abbrev ObjectId := Nat

/-! ## Scopes -/

/-- The names declared in a class body, in the order of their declarations. -/
structure Scope where
  bindings : List (String × ObjectId)
  deriving DecidableEq

namespace Scope

/-- The scope of a class body without declarations. -/
def empty : Scope := ⟨[]⟩

/-- The object that a name stands for. -/
def get? (s : Scope) (name : String) : Option ObjectId := s.bindings.lookup name

/-- Whether a name is declared. -/
def contains (s : Scope) (name : String) : Bool := (s.get? name).isSome

/-- Adds a name. One that is there already keeps its object. -/
def bind (name : String) (id : ObjectId) (s : Scope) : Scope := ⟨s.bindings ++ [(name, id)]⟩

/-- The number of names. -/
def size (s : Scope) : Nat := s.bindings.length

/-- Whether there are no names. -/
def isEmpty (s : Scope) : Bool := s.bindings.isEmpty

@[simp] theorem get?_empty (name : String) : empty.get? name = none := rfl

/-- A name that is added stands for its object, unless it was there before. All other names stand
for what they did. -/
theorem get?_bind (s : Scope) (name other : String) (id : ObjectId) :
    (s.bind name id).get? other = (s.get? other).or (if other = name then some id else none) := by
  simp only [get?, bind, List.lookup_append, List.lookup_cons, List.lookup_nil]
  by_cases h : other = name
  · simp [h]
  · simp [h, beq_eq_false_iff_ne.2 h]

end Scope

/-! ## Objects -/

/-- A class, a method or a field of a program. The classes of arguments, results and fields are given
by their places. The module itself has no parent. -/
inductive Object where
  | ofClass (name : String) (parent : Option ObjectId) (scope : Scope)
  | ofMethod (name : String) (parent : ObjectId) (arguments : List (String × ObjectId))
      (returns : Option ObjectId)
  | ofField (name : String) (parent : ObjectId) (type : ObjectId)
  deriving DecidableEq

namespace Object

/-- The name of an object. -/
def name : Object → String
  | ofClass name _ _ => name
  | ofMethod name _ _ _ => name
  | ofField name _ _ => name

/-- The class that an object is declared in. -/
def parent? : Object → Option ObjectId
  | ofClass _ parent _ => parent
  | ofMethod _ parent _ _ => some parent
  | ofField _ parent _ => some parent

/-- The scope that an object is, if it is a class. -/
def scope? : Object → Option Scope
  | ofClass _ _ scope => some scope
  | _ => none

/-- Whether an object is a class. -/
def isClass (o : Object) : Bool := o.scope?.isSome

/-- The object that a name stands for directly inside an object. -/
def member? (o : Object) (name : String) : Option ObjectId := o.scope?.bind (·.get? name)

/-- Adds a name to a class. Other objects have no names to add to. -/
def bind (name : String) (id : ObjectId) : Object → Object
  | ofClass n parent scope => ofClass n parent (scope.bind name id)
  | o => o

end Object

end Bucket
