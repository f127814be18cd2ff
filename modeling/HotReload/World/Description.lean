import HotReload.Text.Quoted
import HotReload.World.Types

/-!
# Descriptions

The written forms of values, units, callables, types and objects, for diagnostics. A description
names a definition by its qualified name and shows no identity, so two generations of a definition
read alike.
-/

namespace HotReload

/-- The name of a kind of cell with its fields in braces. -/
def described (kind : String) (fields : List (String × String)) : String :=
  kind ++ " \x7b " ++ ", ".intercalate (fields.map fun f => f.1 ++ ": " ++ f.2) ++ " \x7d"

/-- The same for a cell that does not show all its fields. -/
def describedInPart (kind : String) (fields : List (String × String)) : String :=
  kind ++ " \x7b " ++ String.join (fields.map fun f => f.1 ++ ": " ++ f.2 ++ ", ") ++ ".. \x7d"

/-- The written form of an optional part. -/
def describedOption (part : Option String) : String :=
  match part with
  | none => "None"
  | some s => "Some(" ++ s ++ ")"

/-- The written form of a truth value. -/
def describedBool (b : Bool) : String := if b then "true" else "false"

/-- The written form of a layout. -/
def Layout.description : Layout → String
  | dynamic => "Dynamic"
  | fixed slots => "Fixed(" ++ Text.quotedList slots ++ ")"
  | native => "Native"

namespace World

variable {σ : Type} (w : World σ)

/-- The written form of a value. -/
def describe : Value → String
  | .nil => "Nil"
  | .bool b => "Bool(" ++ describedBool b ++ ")"
  | .int n => "Int(" ++ toString n.toInt ++ ")"
  | .str s => "Str(" ++ Text.quoted s ++ ")"
  | .object o => "Object(<" ++ (w.objectName o).text ++ ">)"
  | .callable c => "Callable(" ++ (w.callableName c).text ++ ")"
  | .type t => "Type(" ++ (w.typeName t).text ++ ")"
  | .unit u => "Unit(" ++ (w.unit u).name ++ ")"

/-- The written form of a table of values. -/
def describeTable (table : Table Value) : String :=
  let entries := table.entries.map fun e => Text.quoted e.1 ++ ": " ++ w.describe e.2
  described "ExportTable" [("entries", "\x7b" ++ ", ".intercalate entries ++ "\x7d")]

/-- The written form of an object: its type and the names of its fields. -/
def describeObject (o : ObjectId) : String :=
  described "Instance"
    [("type", Text.quoted (w.objectName o).text),
     ("fields", Text.quotedList (w.object o).fields.names)]

/-- The written form of a unit: its name, the names of its exports and whether it is sealed. -/
def describeUnit (u : UnitId) : String :=
  described "Unit"
    [("name", Text.quoted (w.unit u).name),
     ("exports", Text.quotedList (w.unit u).exports.names),
     ("sealed", describedOption ((w.unit u).sealReason.map Text.quoted))]

/-- The written form of a callable. -/
def describeCallable (c : CallableId) : String :=
  describedInPart "Callable"
    [("owner", Text.quoted (w.callable c).owner), ("name", Text.quoted (w.callable c).name)]

/-- The written form of a type. -/
def describeType (t : TypeId) : String :=
  describedInPart "TypeDef"
    [("owner", Text.quoted (w.type t).owner),
     ("name", Text.quoted (w.type t).name),
     ("ancestors", Text.quotedList ((w.ancestors t).map fun a => (w.typeName a).text)),
     ("layout", (w.type t).layout.description)]

/-- The written form of the cell that a value refers to; a scalar's is that of the value. -/
def describeCell : Value → String
  | .object o => w.describeObject o
  | .callable c => w.describeCallable c
  | .type t => w.describeType t
  | .unit u => w.describeUnit u
  | v => w.describe v

end World

end HotReload
