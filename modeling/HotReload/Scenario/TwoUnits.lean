import HotReload.Scenario.Stage

/-!
# Two units

A small world to try reloads on. Unit `b` has a function `f` and a type `C` with a method `m`, both
of which return a label. Unit `a` uses `b` in every way: it holds the unit, copies of `f` and `C`, a
subtype `D` of `C`, functions that call `f` directly and through `b`, and an object of either type.

Editing `b` changes the label that its next compilation uses.
-/

namespace HotReload.Scenario.TwoUnits

/-- What a unit is compiled from. -/
inductive Script where
  /-- The definitions of `b`, with this label. -/
  | labelled (label : String)
  /-- The definitions of `a`. -/
  | importer
  /-- Nothing: compiling fails with this message. -/
  | broken (message : String)
  deriving DecidableEq, Repr, Inhabited

/-- The host state: the registry, the two units as they were first loaded, the sources, and how
often a source has been compiled. -/
structure Fixture where
  registry : RegistryId
  a : UnitId
  b : UnitId
  sources : Table Script
  compiles : Nat
  deriving Inhabited

instance : Host Fixture := ⟨fun f => [.registry f.registry, .unit f.a, .unit f.b]⟩

/-! ### Compiling -/

/-- The exports of `b`. -/
def compileLabelled (label : String) (u : UnitId) (w : World Fixture) :
    Table Value × World Fixture :=
  let owner := (w.unit u).name
  let body := Expr.literal (.str label)
  let (f, w) := w.newCallable ⟨owner, "f", some u, body, none⟩
  let (m, w) := w.newCallable ⟨owner, "m", some u, body, none⟩
  let (c, w) :=
    w.declareType ⟨owner, "C", u, .dynamic, [], [], .ofList [("m", ⟨m, .onObject⟩)]⟩ []
  (.ofList [("f", .callable f), ("C", .type c)], w)

/-- The exports of `b` that `a` is made from. -/
def imports (w : World Fixture) (r : RegistryId) : Except String (UnitId × Value × TypeId) :=
  match w.unit? r "b" with
  | none => .error "unit 'b' is not loaded"
  | some b =>
    match w.export? b "f", (w.export? b "C").bind Value.type? with
    | none, _ => .error "b.f is not defined"
    | some _, none => .error "b.C is not a type"
    | some f, some c => .ok (b, f, c)

/-- Constructs an object. -/
def constructObject (t : TypeId) (w : World Fixture) : Except String ObjectId × World Fixture :=
  let (result, w) := ((World.construct World.run t []).run).run w
  (result.mapError CallError.message, w)

/-- The exports of `a`, given what it imports. -/
def compileImporter (u : UnitId) (b : UnitId) (f : Value) (c : TypeId) (w : World Fixture) :
    Except String (Table Value) × World Fixture :=
  let owner := (w.unit u).name
  let (d, w) := w.declareType ⟨owner, "D", u, .dynamic, [], [], .empty⟩ [c]
  w.holding [.unit b, .type c, .type d] fun w =>
    match constructObject c w with
    | (.error e, w) => (.error e, w)
    | (.ok obj, w) =>
      match w.holding [.object obj] (constructObject d) with
      | (.error e, w) => (.error e, w)
      | (.ok sub, w) =>
        let (direct, w) := w.newCallable ⟨owner, "b_direct", some u, .callPath "f" [], none⟩
        let (through, w) := w.newCallable ⟨owner, "b_through_mod", some u, .callPath "b.f" [], none⟩
        (.ok (.ofList
          [("b", .unit b), ("f", f), ("C", .type c), ("D", .type d), ("b_direct", .callable direct),
            ("b_through_mod", .callable through), ("obj", .object obj), ("sub", .object sub)]), w)

/-- Compiles a unit. -/
def compile : Recompiler Fixture := fun u r w =>
  let w := { w with host := { w.host with compiles := w.host.compiles + 1 } }
  let name := (w.unit u).name
  match w.host.sources.get? name with
  | none => (.error ("no source for unit '" ++ name ++ "'"), w)
  | some (.broken message) => (.error message, w)
  | some (.labelled label) =>
    let (table, w) := compileLabelled label u w
    (.ok table, w)
  | some .importer =>
    match imports w r with
    | .error e => (.error e, w)
    | .ok (b, f, c) => compileImporter u b f c w

/-- Loads a unit for the first time: compiles it and merges the table. -/
def loadUnit (name : String) (w : World Fixture) : Except String UnitId × World Fixture :=
  let (u, w) := w.load w.host.registry name
  match w.holding [.unit u] (compile u w.host.registry) with
  | (.error e, w) => (.error e, w)
  | (.ok table, w) => (.ok u, w.mergeExports u table)

/-- The fixture with `b` and then `a` loaded. -/
def opening : World Fixture :=
  let w : World Fixture := .initial default
  let (h, w) := w.newHeap
  let (r, w) := w.newRegistry h
  let (b, w) := w.load r "b"
  let (a, w) := w.load r "a"
  -- `b` comes first, because compiling `a` reads its exports
  let w := { w with host := ⟨r, a, b, .ofList [("b", .labelled "b"), ("a", .importer)], 0⟩ }
  (loadUnit "a" (loadUnit "b" w).2).2

/-! ### Steps -/

/-- A **step** on the fixture. -/
inductive Step where
  | edit (label : String)
  | breakSource (unit message : String)
  | load (unit : String)
  | loadSealed (unit reason : String)
  | reload (units : List String)
  | wrap (units : List String) (suffix : String) (members : Option (List String))
  | remove (name : String)
  | set (name value : String)
  | call (name : String)
  | method (name : String)
  | compiles
  /-- A step of a sort that does not exist. -/
  | unknown
  /-- A step that lacks a part. -/
  | malformed
  deriving Inhabited

/-- What ends a scenario before its last step. -/
inductive Abort where
  /-- A call has failed that has to succeed. -/
  | crash
  /-- A step makes no sense. -/
  | badInput
  deriving DecidableEq, Repr, Inhabited

/-- What can go wrong with a step: a fault of the step, or something that ends the scenario. -/
inductive Mishap where
  | fault (f : Fault)
  | abort (a : Abort)
  deriving Inhabited

/-- The outcome of a step. -/
abbrev Outcome := Except Mishap Answer × World Fixture

/-- Changes the host state. -/
def onHost (f : Fixture → Fixture) (w : World Fixture) : World Fixture :=
  { w with host := f w.host }

/-- A reloader over the fixture. -/
def withReloader (config : Config) (w : World Fixture)
    (call : Reloader → World Fixture → Except ReloadError Report × World Fixture) : Outcome :=
  -- a reloader of its own for each call: nothing is ever busy
  let (g, w) := w.newGuard
  let (result, w) := call (.overHeap g w.host.registry config) w
  (match result with
    | .ok report => .ok (.report report)
    | .error e => .error (.fault (.reload e)), w)

/-- The wrapper that appends a text to what a callable returns. -/
def appending (suffix : String) : Wrapper Fixture := fun c _ w =>
  w.newCallable
    { w.callable c with body := .concat [.forward, .literal (.str suffix)], inner := some c }

/-- What a call of the fixture has to return: a text. -/
def textOf (act : Act Fixture Value) (w : World Fixture) : Outcome :=
  let (result, w) := act.run.run w
  match result with
  | .ok (.str s) => (.ok (.text s), w)
  | _ => (.error (.abort .crash), w)

/-- Performs a step. -/
def Step.perform (config : Config) (step : Step) (w : World Fixture) : Outcome :=
  match step with
  | edit label =>
    (.ok .null, onHost (fun f => { f with sources := f.sources.insert "b" (.labelled label) }) w)
  | breakSource unit message =>
    (.ok .null, onHost (fun f => { f with sources := f.sources.insert unit (.broken message) }) w)
  | load unit =>
    match loadUnit unit w with
    | (.ok u, w) => (.ok (.text (w.unit u).name), w)
    | (.error e, w) => (.error (.fault (.recompile e)), w)
  | loadSealed unit reason =>
    let (u, w) := w.loadSealed w.host.registry unit reason
    (.ok (.text (w.unit u).name), w)
  | reload units => withReloader config w fun r => r.reload compile units
  | wrap units suffix members =>
    withReloader config w fun r => r.wrap (appending suffix) ⟨members⟩ units
  | remove name =>
    (.ok (.bool (w.export? w.host.b name).isSome), w.eraseExport w.host.b name)
  | set name value =>
    (.ok (.bool (w.export? w.host.a name).isSome), w.setExport w.host.a name (.str value))
  | call name =>
    match (w.export? w.host.a name).bind Value.callable? with
    | none => (.error (.fault .badInput), w)
    | some c => textOf (World.run c []) w
  | method name =>
    match (w.export? w.host.a name).bind Value.object? with
    | none => (.error (.abort .crash), w)
    | some o => textOf (World.callMethod World.run o "m" []) w
  | compiles => (.ok (.count w.host.compiles), w)
  | unknown => (.error (.fault .badInput), w)
  | malformed => (.error (.abort .badInput), w)

/-- Performs steps one after the other. A scenario that is aborted leaves no answers at all. -/
def performSteps (config : Config) :
    List Step → World Fixture → Except Abort (List (Except Fault Answer))
  | [], _ => .ok []
  | step :: rest, w =>
    match step.perform config w with
    | (.error (.abort a), _) => .error a
    | (.error (.fault f), w) => (performSteps config rest w).map (.error f :: ·)
    | (.ok a, w) => (performSteps config rest w).map (.ok a :: ·)

/-- **The answers** of a scenario on the fixture. -/
def answers (config : Config) (steps : List Step) : Except Abort (List (Except Fault Answer)) :=
  performSteps config steps opening

end HotReload.Scenario.TwoUnits
