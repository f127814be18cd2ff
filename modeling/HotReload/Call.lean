import HotReload.World.Description
import HotReload.World.Objects
import HotReload.World.Units

/-!
# Calls

Running a callable evaluates its body in a frame. The frame resolves global names in the callable's
home unit at the time of the call, so a write to an export slot redirects every body that reads it.

* `Frame.resolve` follows a dotted path that starts at a global and goes through units and types;
* `World.invoke` calls a value: a callable runs, a type constructs an object;
* `World.callMethod` calls a member through an object and `World.callMember` through a type. Both
  look the member up from the current type and hand it a receiver as its binding says.

These functions and the evaluator `Expr.eval` are parametric in how a callable is run, and
`World.runWithin` closes the knot with a bound on the nesting of calls. What running code holds, it
pins: the home unit and the arguments of a frame, and every operand while later ones are evaluated.
-/

namespace HotReload

/-- **Actions.** They read and change the world, and may fail. A failure keeps the changes made
before. -/
abbrev Act (σ α : Type) := ExceptT CallError (StateM (World σ)) α

/-- Running a callable on arguments. -/
abbrev Runner (σ : Type) := CallableId → List Value → Act σ Value

namespace Act

variable {σ α : Type}

/-- Runs an action with nodes pinned. -/
def holding (nodes : List Node) (act : Act σ α) : Act σ α :=
  ExceptT.mk fun w => w.holding nodes act.run

/-- Runs an action with the nodes of some values pinned. -/
def keeping (vs : List Value) (act : Act σ α) : Act σ α := act.holding (vs.flatMap Value.nodes)

/-- The first action, or the second one if the first fails. -/
def orElse (a b : Act σ α) : Act σ α :=
  ExceptT.mk do
    match ← a.run with
    | .ok v => pure (.ok v)
    | .error _ => b.run

/-- The outcome of an action as a value of its own. -/
def outcome (a : Act σ α) : Act σ (Except CallError α) :=
  ExceptT.mk do
    let r ← a.run
    pure (.ok r)

end Act

/-! ### Frames -/

/-- The **frame** of a call: the running callable, its home unit if that is alive, and the
arguments. -/
structure Frame where
  callable : CallableId
  home : Option UnitId
  args : List Value
  deriving Inhabited

/-- The segments of a dotted path. There is always one. -/
def segments : List Char → List (List Char)
  | [] => [[]]
  | '.' :: cs => [] :: segments cs
  | c :: cs =>
    match segments cs with
    | [] => [[c]]
    | s :: ss => (c :: s) :: ss

namespace Frame

variable {σ : Type}

/-- The error for a callable whose home is gone. -/
def homeless (w : World σ) (f : Frame) : CallError :=
  .homeUnloaded (w.callableName f.callable).text

/-- A global of the home unit. -/
def global (w : World σ) (f : Frame) (name : String) : Except CallError Value :=
  match f.home with
  | none => .error (f.homeless w)
  | some u =>
    match w.export? u name with
    | some v => .ok v
    | none => .error (.undefinedGlobal (w.unit u).name name)

/-- The callable that the running one wraps. -/
def wrapped (f : Frame) : Act σ CallableId := do
  match ((← get).callable f.callable).inner with
  | some c => pure c
  | none => throw (.raised "malformed body")

/-- One step of a path: a unit gives one of its exports, a type the callable of one of its
members. -/
def step (w : World σ) (v : Value) (segment : String) : Except CallError Value :=
  match v with
  | .unit u =>
    match w.export? u segment with
    | some v => .ok v
    | none => .error (.undefinedGlobal (w.unit u).name segment)
  | .type t =>
    match w.resolve? t segment with
    | some m => .ok (.callable m.callable)
    | none => .error (.noSuchMember (w.typeName t).text segment)
  | v => .error (.typeMismatch "unit or type" v.kind)

/-- **Dotted paths.** The first segment is a global, each further one a step from what came
before. -/
def resolve (w : World σ) (f : Frame) (path : String) : Except CallError Value :=
  match (segments path.toList).map String.ofList with
  -- `segments` yields at least one segment, so this case does not arise
  | [] => f.global w ""
  | first :: rest => do rest.foldlM (step w) (← f.global w first)

end Frame

/-! ### Kinds of operands -/

/-- The object that a value has to be. -/
def Value.asObject (v : Value) : Except CallError ObjectId :=
  match v with
  | .object o => .ok o
  | v => .error (.typeMismatch "object" v.kind)

/-- The type that a value has to be. -/
def Value.asType (v : Value) : Except CallError TypeId :=
  match v with
  | .type t => .ok t
  | v => .error (.typeMismatch "type" v.kind)

/-- The integer that a value has to be. -/
def Value.asInt (v : Value) : Except CallError Int64 :=
  match v with
  | .int n => .ok n
  | v => .error (.typeMismatch "int" v.kind)

/-- The sum of two integers, if it is in range. -/
def sum? (a b : Int64) : Option Int64 :=
  let n := a.toInt + b.toInt
  if Int64.minValue.toInt ≤ n ∧ n ≤ Int64.maxValue.toInt then some (Int64.ofInt n) else none

namespace World

variable {σ : Type} [Host σ]

/-! ### Calling members and values -/

/-- The arguments of a member, led by its receiver if its binding asks for one. -/
def receive (binding : Binding) (o : Option ObjectId) (t : TypeId) (args : List Value) :
    List Value :=
  match binding, o with
  | .onObject, some o => .object o :: args
  | .onType, _ => .type t :: args
  | _, _ => args

/-- Calls a member that `t` resolves. -/
def callResolved (run : Runner σ) (o : Option ObjectId) (t : TypeId) (name : String)
    (args : List Value) : Act σ Value := do
  let w ← get
  match w.resolve? t name with
  | none => throw (.noSuchMember (w.typeName t).text name)
  -- the receiver is the type that was asked, whichever ancestor declares the member
  | some m => (run m.callable (receive m.binding o t args)).holding [.type t]

/-- Calls a member through an object. -/
def callMethod (run : Runner σ) (o : ObjectId) (name : String) (args : List Value) :
    Act σ Value := do
  let w ← get
  (callResolved run (some o) (w.object o).type name args).holding [.object o]

/-- Calls a member through a type. -/
def callMember (run : Runner σ) (t : TypeId) (name : String) (args : List Value) : Act σ Value :=
  callResolved run none t name args

/-- Registers an object in the heap of the home of `t`, if that is alive. -/
def registerAtHome (w : World σ) (t : TypeId) (o : ObjectId) : World σ :=
  match w.aliveUnit? (some (w.type t).home) with
  | some u => w.register (w.unit u).heap o
  | none => w

/-- **Construction.** Makes an object, registers it at home, and runs the member `init` if the type
has one. -/
def construct (run : Runner σ) (t : TypeId) (args : List Value) : Act σ ObjectId := do
  let w ← get
  let (o, w) := w.newObject t
  set w
  Act.holding [.object o] do
    -- registered before `init` runs, so the object is in the heap even if `init` fails
    modify fun w => w.registerAtHome t o
    let w ← get
    if (w.resolve? t "init").isSome then discard (callMethod run o "init" args)
    return o

/-- Calls a value. -/
def invoke (run : Runner σ) (v : Value) (args : List Value) : Act σ Value :=
  match v with
  | .callable c => run c args
  | .type t => do return .object (← (construct run t args).holding [.type t])
  | v => throw (.notCallable v.kind)

end World

/-! ### Evaluation -/

variable {σ : Type} [Host σ]

mutual

/-- **Evaluation** of an expression in a frame. Operands are evaluated from left to right and the
first failure wins. -/
def Expr.eval (run : Runner σ) (f : Frame) : Expr → Act σ Value
  | .literal v => pure v
  | .arg i => pure (f.args.getD i .nil)
  | .argCount => pure (.int (Int64.ofNat f.args.length))
  | .global name => do liftExcept (f.global (← get) name)
  | .resolve path => do liftExcept (f.resolve (← get) path)
  | .callPath path args => do
    let vs ← Expr.evalAll run f args
    -- the path is followed last, so it sees what the arguments have written
    Act.keeping vs do
      let v ← liftExcept (f.resolve (← get) path)
      Act.keeping [v] (World.invoke run v vs)
  | .invoke callee args => do
    let v ← callee.eval run f
    Act.keeping [v] do
      let vs ← Expr.evalAll run f args
      Act.keeping vs (World.invoke run v vs)
  | .method object name args => do
    let v ← object.eval run f
    let o ← liftExcept v.asObject
    Act.keeping [v] do
      let vs ← Expr.evalAll run f args
      Act.keeping vs (World.callMethod run o name vs)
  | .member type name args => do
    let v ← type.eval run f
    let t ← liftExcept v.asType
    Act.keeping [v] do
      let vs ← Expr.evalAll run f args
      Act.keeping vs (World.callMember run t name vs)
  | .field object name => do
    let o ← liftExcept (← object.eval run f).asObject
    return ((← get).field? o name).getD .nil
  | .setField object name value => do
    let v ← object.eval run f
    let o ← liftExcept v.asObject
    Act.keeping [v] do
      let new ← value.eval run f
      let w ← get
      let old := (w.field? o name).getD .nil
      set (w.setField o name new)
      return old
  | .setGlobal name value => do
    -- the value is evaluated whether or not there is a home to write it to
    let new ← value.eval run f
    let w ← get
    match f.home with
    | none => throw (f.homeless w)
    | some u =>
      let old := (w.export? u name).getD .nil
      set (w.setExport u name new)
      return old
  | .kindOf e => do return .str (← e.eval run f).kind
  | .typeOf object => do
    let o ← liftExcept (← object.eval run f).asObject
    return .type ((← get).object o).type
  | .isA object type => do
    let v ← object.eval run f
    let o ← liftExcept v.asObject
    Act.keeping [v] do
      let t ← liftExcept (← type.eval run f).asType
      return .bool ((← get).isInstance o t)
  | .equal a b => do
    let v ← a.eval run f
    Act.keeping [v] do return .bool (v == (← b.eval run f))
  | .concat es => do
    let vs ← Expr.evalAll run f es
    let w ← get
    return .str (String.join (vs.map fun v => v.str?.getD (w.describe v)))
  | .add a b => do
    let m ← liftExcept (← a.eval run f).asInt
    let n ← liftExcept (← b.eval run f).asInt
    match sum? m n with
    | some s => return .int s
    | none => throw (.raised "overflow")
  | .selfName => do return .str ((← get).callableName f.callable).text
  | .raise message => throw (.raised message)
  | .attempt a b => (a.eval run f).orElse (b.eval run f)
  | .errorText e => do
    match ← (e.eval run f).outcome with
    | .ok v => return v
    | .error err => return .str err.message
  | .seq es => Expr.evalLast run f .nil es
  | .cond c a b => do
    let v ← c.eval run f
    -- the condition is kept until the branch is done
    Act.keeping [v] (if v.truthy then a.eval run f else b.eval run f)
  | .inner args => do
    let c ← f.wrapped
    let vs ← Expr.evalAll run f args
    Act.keeping vs (run c vs)
  | .forward => do run (← f.wrapped) f.args
  | .malformed => throw (.raised "malformed body")

/-- The values of expressions, from left to right, each kept until the last one is there. -/
def Expr.evalAll (run : Runner σ) (f : Frame) : List Expr → Act σ (List Value)
  | [] => pure []
  | e :: es => do
    let v ← e.eval run f
    Act.keeping [v] do return v :: (← Expr.evalAll run f es)

/-- The value of the last expression, each value kept until the next one is there. -/
def Expr.evalLast (run : Runner σ) (f : Frame) (last : Value) : List Expr → Act σ Value
  | [] => pure last
  | e :: es => do
    let v ← Act.keeping [last] (e.eval run f)
    Expr.evalLast run f v es

end

namespace World

/-- **Calls with bounded nesting.** A callable runs its body in a frame whose home is the home unit
of the callable, if that is alive. -/
def runWithin : Nat → Runner σ
  | 0, _, _ => throw .tooDeep
  | bound + 1, c, args => do
    let w ← get
    -- a home that has died since the callable was made is no home
    let f : Frame := ⟨c, w.aliveUnit? (w.callable c).home, args⟩
    ((w.callable c).body.eval (runWithin bound) f).holding
      (f.home.toList.map .unit ++ args.flatMap Value.nodes)

/-- How deep calls may nest. -/
def depthLimit : Nat := 1000000000

/-- Runs a callable. -/
def run : Runner σ := runWithin depthLimit

end World

end HotReload
