import HotReload.Value

/-!
# Bodies of callables

The body of a callable is an expression over the frame of the call: the arguments, the globals of
the home unit and, for a wrapper, the callable that it wraps. Evaluation is in `HotReload.Call`;
this module has only the syntax.
-/

namespace HotReload

/-- An **expression**, the body of a callable. -/
inductive Expr where
  /-- A scalar stands for itself. -/
  | literal (v : Value)
  /-- The argument at a position, nil past the last one. -/
  | arg (i : Nat)
  /-- How many arguments the call has. -/
  | argCount
  /-- A global of the home unit. -/
  | global (name : String)
  /-- What a dotted path denotes. -/
  | resolve (path : String)
  /-- Evaluates the arguments, resolves the path and calls what it denotes. -/
  | callPath (path : String) (args : List Expr)
  /-- Calls the value of the first expression with the values of the others. -/
  | invoke (callee : Expr) (args : List Expr)
  /-- Calls a member through an object. -/
  | method (object : Expr) (name : String) (args : List Expr)
  /-- Calls a member through a type. -/
  | member (type : Expr) (name : String) (args : List Expr)
  /-- A field of an object, nil if it has none of this name. -/
  | field (object : Expr) (name : String)
  /-- Writes a field and yields what it held. -/
  | setField (object : Expr) (name : String) (value : Expr)
  /-- Writes an export of the home unit and yields what it held. -/
  | setGlobal (name : String) (value : Expr)
  /-- The word for the kind of a value. -/
  | kindOf (e : Expr)
  /-- The current type of an object. -/
  | typeOf (object : Expr)
  /-- True if the object's type is the given type or derives from it. -/
  | isA (object type : Expr)
  /-- Equality of values. -/
  | equal (a b : Expr)
  /-- Concatenation of texts; what is not a string contributes its written form. -/
  | concat (es : List Expr)
  /-- The sum of two integers. -/
  | add (a b : Expr)
  /-- The qualified name of the running callable. -/
  | selfName
  /-- Raises an error with this message. -/
  | raise (message : String)
  /-- The first expression, or the second one if the first fails. -/
  | attempt (a b : Expr)
  /-- The value of an expression, or the text of its error. -/
  | errorText (e : Expr)
  /-- Evaluates in order and yields the last value, nil if there is none. -/
  | seq (es : List Expr)
  /-- A conditional. -/
  | cond (c a b : Expr)
  /-- Calls the wrapped callable with these arguments. -/
  | inner (args : List Expr)
  /-- Calls the wrapped callable with the arguments of the running call. -/
  | forward
  /-- No expression at all: evaluating it raises an error. -/
  | malformed
  deriving Inhabited

end HotReload
