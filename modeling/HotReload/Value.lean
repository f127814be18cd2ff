/-!
# Values and identities

Units, callables, types and objects are told apart by identity, which is a number in the store that
holds them. A *value* is a scalar or a reference to one of them, so equality of values is equality
of scalars and identity of references, and `DecidableEq` is the right test for it.
-/

namespace HotReload

/-- Identity of a unit. -/
structure UnitId where
  index : Nat
  deriving DecidableEq, Repr, Inhabited

/-- Identity of a callable. -/
structure CallableId where
  index : Nat
  deriving DecidableEq, Repr, Inhabited

/-- Identity of a type. -/
structure TypeId where
  index : Nat
  deriving DecidableEq, Repr, Inhabited

/-- Identity of an object. -/
structure ObjectId where
  index : Nat
  deriving DecidableEq, Repr, Inhabited

/-- Identity of a heap. -/
structure HeapId where
  index : Nat
  deriving DecidableEq, Repr, Inhabited

/-- Identity of a registry of units. -/
structure RegistryId where
  index : Nat
  deriving DecidableEq, Repr, Inhabited

/-- A **definition**: something that a unit owns and that other units can hold a copy of. -/
inductive Definition where
  | callable (c : CallableId)
  | type (t : TypeId)
  deriving DecidableEq, Repr

namespace Definition

/-- The type, if the definition is one. -/
def type? : Definition → Option TypeId
  | callable _ => none
  | type t => some t

/-- The callable, if the definition is one. -/
def callable? : Definition → Option CallableId
  | callable c => some c
  | type _ => none

/-- The word for the kind of definition. -/
def kind : Definition → String
  | callable _ => "callable"
  | type _ => "type"

end Definition

/-- A **value** of the running program. -/
inductive Value where
  | nil
  | bool (b : Bool)
  | int (n : Int64)
  | str (s : String)
  | object (o : ObjectId)
  | definition (d : Definition)
  | unit (u : UnitId)
  deriving DecidableEq, Repr, Inhabited

namespace Value

/-- A callable as a value. -/
@[match_pattern] abbrev callable (c : CallableId) : Value := .definition (.callable c)

/-- A type as a value. -/
@[match_pattern] abbrev type (t : TypeId) : Value := .definition (.type t)

/-- The word for the kind of value, as error texts use it. -/
def kind : Value → String
  | nil => "nil"
  | bool _ => "bool"
  | int _ => "int"
  | str _ => "str"
  | object _ => "object"
  | definition d => d.kind
  | unit _ => "unit"

/-- The definition that the value is, if it is one. -/
def definition? : Value → Option Definition
  | definition d => some d
  | _ => none

/-- The callable that the value is, if it is one. -/
def callable? (v : Value) : Option CallableId := v.definition?.bind Definition.callable?

/-- The type that the value is, if it is one. -/
def type? (v : Value) : Option TypeId := v.definition?.bind Definition.type?

/-- The object that the value is, if it is one. -/
def object? : Value → Option ObjectId
  | object o => some o
  | _ => none

/-- The unit that the value is, if it is one. -/
def unit? : Value → Option UnitId
  | unit u => some u
  | _ => none

/-- The string that the value is, if it is one. -/
def str? : Value → Option String
  | str s => some s
  | _ => none

/-- The integer that the value is, if it is one. -/
def int? : Value → Option Int64
  | int n => some n
  | _ => none

/-- Nil and false count as false in a condition, everything else as true. -/
def truthy : Value → Bool
  | nil => false
  | bool b => b
  | _ => true

@[simp] theorem definition?_eq_some {v : Value} {d : Definition} :
    v.definition? = some d ↔ v = .definition d := by
  cases v <;> simp [definition?]

end Value

end HotReload
