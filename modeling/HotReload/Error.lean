/-!
# Errors of the running program

Each type lists the causes of one kind of failure, and its `message` words them.

* `CallError`: a call or a lookup failed;
* `RetypeError`: an object did not take on a new type;
* `IntrospectError`: a unit did not show its exports.
-/

namespace HotReload

/-- Why a call failed. -/
inductive CallError where
  /-- A unit has no export of this name. -/
  | undefinedGlobal (unit name : String)
  /-- The home unit of the named callable is gone. -/
  | homeUnloaded (callable : String)
  /-- A value of this kind cannot be called. -/
  | notCallable (kind : String)
  /-- Neither the type nor an ancestor declares the member. -/
  | noSuchMember (type member : String)
  /-- A value has the wrong kind. -/
  | typeMismatch (expected actual : String)
  /-- The program raised an error of its own. -/
  | raised (message : String)
  /-- Calls are nested beyond the depth that the engine allows. -/
  | tooDeep
  deriving DecidableEq, Repr, Inhabited

/-- The wording of a call error. -/
def CallError.message : CallError → String
  | undefinedGlobal unit name => "name '" ++ name ++ "' is not defined in unit '" ++ unit ++ "'"
  | homeUnloaded callable => "home unit of '" ++ callable ++ "' is no longer loaded"
  | notCallable kind => "'" ++ kind ++ "' is not callable"
  | noSuchMember type member => "'" ++ type ++ "' has no member '" ++ member ++ "'"
  | typeMismatch expected actual => "expected " ++ expected ++ ", got " ++ actual
  | raised message => message
  | tooDeep => "calls are nested too deeply"

/-- Why an object did not take on a type. -/
inductive RetypeError where
  /-- The named type is native. -/
  | native (type : String)
  /-- The layouts of the two types differ. -/
  | layoutMismatch (source target : String)
  deriving DecidableEq, Repr, Inhabited

/-- The wording of a retype error. -/
def RetypeError.message : RetypeError → String
  | native type => "type '" ++ type ++ "' is native and does not support retyping"
  | layoutMismatch source target =>
    "layout of '" ++ source ++ "' is incompatible with '" ++ target ++ "'"

/-- Why a unit did not show its exports. -/
inductive IntrospectError where
  /-- The unit refuses introspection. -/
  | isSealed (unit reason : String)
  /-- The unit's exports are being written by someone else. Here one thing is done at a time, so no
  unit is ever found like this, and the error is kept for its wording. -/
  | isLocked (unit : String)
  deriving DecidableEq, Repr, Inhabited

/-- The wording of an introspection error. -/
def IntrospectError.message : IntrospectError → String
  | isSealed unit reason => "unit '" ++ unit ++ "' is sealed: " ++ reason
  | isLocked unit => "export table of unit '" ++ unit ++ "' is locked"

end HotReload
