import HotReload.Reload.Report
import HotReload.Reload.Session

/-!
# Answers

What a scenario says about its world. An answer is a tree of texts, numbers and truth values in
which units, callables, types and objects can occur. Such an *entity* is written with its name and a
number.

Numbers are handed out in the order of first appearance, from 1, and an entity keeps its number for
good (`Numbering`). So an answer shows which entities are the same without showing an identity.
-/

namespace HotReload

/-- An **answer**. -/
inductive Answer where
  | null
  | bool (b : Bool)
  | int (n : Int)
  | text (s : String)
  | list (items : List Answer)
  | record (entries : List (String × Answer))
  /-- An entity: the word for its sort, its name at this time, and a reference to it. -/
  | entity (sort name : String) (ref : Value)
  deriving Inhabited

/-- The entities that have a number, in the order of their numbers. -/
abbrev Numbering := List Value

namespace Numbering

/-- The number of an entity, which is a new one at its first appearance. -/
def number (ns : Numbering) (ref : Value) : Nat × Numbering :=
  match ns.idxOf? ref with
  | some i => (i + 1, ns)
  | none => (ns.length + 1, ns ++ [ref])

end Numbering

namespace Answer

mutual

/-- Writes entities with their numbers, from left to right. -/
def numbered : Answer → Numbering → Answer × Numbering
  | .list items, ns =>
    let (items, ns) := numberedItems items ns
    (.list items, ns)
  | .record entries, ns =>
    let (entries, ns) := numberedEntries entries ns
    (.record entries, ns)
  | .entity sort name ref, ns =>
    let (n, ns) := ns.number ref
    (.record [(sort, .text name), ("id", .int n)], ns)
  | a, ns => (a, ns)

/-- Writes the entities of a list. -/
def numberedItems : List Answer → Numbering → List Answer × Numbering
  | [], ns => ([], ns)
  | a :: as, ns =>
    let (a, ns) := numbered a ns
    let (as, ns) := numberedItems as ns
    (a :: as, ns)

/-- Writes the entities of a record. -/
def numberedEntries : List (String × Answer) → Numbering → List (String × Answer) × Numbering
  | [], ns => ([], ns)
  | (key, a) :: rest, ns =>
    let (a, ns) := numbered a ns
    let (rest, ns) := numberedEntries rest ns
    ((key, a) :: rest, ns)

end

/-! ### Simple answers -/

/-- A count. -/
def count (n : Nat) : Answer := .int n

/-- A list of texts. -/
def texts (ss : List String) : Answer := .list (ss.map .text)

/-- A text, or null. -/
def text? (s : Option String) : Answer := (s.map .text).getD .null

/-- An answer in a list of its own, or a word for its absence. -/
def present? (a : Option Answer) : Answer := (a.map fun a => .list [a]).getD (.text "absent")

/-! ### Values and definitions -/

variable {σ : Type}

/-- A value. -/
def value (w : World σ) : Value → Answer
  | .nil => .null
  | .bool b => .bool b
  | .int n => .int n.toInt
  | .str s => .text s
  | .object o => .entity "object" (w.objectName o).text (.object o)
  | .definition d => .entity d.kind (w.nameOf d).text (.definition d)
  | .unit u => .entity "unit" (w.unit u).name (.unit u)

/-- A list of values. -/
def values (w : World σ) (vs : List Value) : Answer := .list (vs.map (value w))

/-- The entries of a table. -/
def table (w : World σ) (t : Table Value) : Answer :=
  .list (t.entries.map fun e => .list [.text e.1, value w e.2])

/-- Definitions under names. -/
def definitions (w : World σ) (defs : List (String × Definition)) : Answer :=
  .list (defs.map fun e => .list [.text e.1, value w (.definition e.2)])

/-- A qualified name in its parts. -/
def qualifiedName (q : QualifiedName) : Answer := .list [.text q.unit, texts q.path]

/-- A kind of binding. -/
def binding : Binding → Answer
  | .onObject => .text "instance"
  | .onType => .text "type"
  | .static => .text "static"

/-- A member. -/
def member (w : World σ) (m : Member) : Answer :=
  .list [binding m.binding, value w (.callable m.callable)]

/-- A layout. -/
def layout : Layout → Answer
  | .dynamic => .text "dynamic"
  | .fixed slots => texts slots
  | .native => .text "native"

/-! ### Reloads -/

/-- A level. -/
def level : Level → Answer
  | .debug => .text "debug"
  | .info => .text "info"
  | .warn => .text "warn"
  | .error => .text "error"

/-- The parts of an event: the word for its kind first. -/
def eventParts : Event → List (String × Answer)
  | .recompileStarted attempt => [("kind", .text "recompile_started"), ("attempt", count attempt)]
  | .recompiled exports => [("kind", .text "recompiled"), ("exports", count exports)]
  | .recompileRetry attempt detail =>
    [("kind", .text "recompile_retry"), ("attempt", count attempt), ("detail", .text detail)]
  | .recompileFailed attempts detail =>
    [("kind", .text "recompile_failed"), ("attempts", count attempts), ("detail", .text detail)]
  | .unitSkipped reason => [("kind", .text "unit_skipped"), ("reason", .text reason)]
  | .bindingRepointed holder localName target =>
    [("kind", .text "binding_repointed"), ("holder", .text holder),
     ("local_name", .text localName), ("target", .text target)]
  | .symbolRemoved name holders =>
    [("kind", .text "symbol_removed"), ("name", .text name), ("holders", count holders)]
  | .typeRemoved name => [("kind", .text "type_removed"), ("name", .text name)]
  | .ancestorRepointed subtype ancestor =>
    [("kind", .text "ancestor_repointed"), ("subtype", .text subtype), ("ancestor", .text ancestor)]
  | .objectRetargeted type => [("kind", .text "instance_retargeted"), ("ty", .text type)]
  | .retypeRejected type reason =>
    [("kind", .text "retype_rejected"), ("ty", .text type), ("reason", .text reason)]
  | .wrapped name => [("kind", .text "wrapped"), ("name", .text name)]

/-- An event. -/
def event (e : Event) : Answer := .record (eventParts e)

/-- A journal entry. -/
def entry (e : Entry) : Answer :=
  .record ([("seq", count e.seq), ("level", level e.level), ("unit", .text e.unit)] ++
    eventParts e.event)

/-- Journal entries. -/
def entries (es : List Entry) : Answer := .list (es.map entry)

/-- Counts of changes. -/
def stats (s : Stats) : Answer :=
  .record
    [("bindings_repointed", count s.bindingsRepointed),
     ("removed_symbols", count s.removedSymbols),
     ("subtypes_repointed", count s.subtypesRepointed),
     ("removed_types", count s.removedTypes),
     ("instances_retargeted", count s.objectsRetargeted),
     ("instances_rejected", count s.objectsRejected)]

/-- Counts of changes, and whether all of them are zero. -/
def statsAndZero (s : Stats) : Answer := .record [("stats", stats s), ("zero", .bool s.isZero)]

/-- A failure. -/
def failure (f : Failure) : Answer :=
  .record [("unit", .text f.unit), ("attempts", count f.attempts), ("detail", .text f.detail)]

/-- A configuration. -/
def config (c : Config) : Answer :=
  .record
    [("retry_budget", count c.retryBudget),
     ("install_mode", .text (match c.installMode with | .merge => "merge" | .replace => "replace")),
     ("journal_capacity", (c.journalCapacity.map count).getD .null),
     ("log_removed_symbols", .bool c.logRemovedSymbols)]

/-- A report. -/
def report (r : Report) : Answer :=
  .record
    [("reloaded", texts r.reloaded),
     ("failures", .list (r.failures.map failure)),
     ("skipped_units", texts r.skippedUnits),
     ("stats", stats r.stats),
     ("events", entries r.events),
     ("clean", .bool r.isClean)]

/-- A session, seen from outside. -/
def session (w : World σ) (s : Session) : Answer :=
  .record
    [("config", config s.config),
     ("units", values w (s.snapshot.units.map .unit)),
     ("stale", count s.snapshot.staleCount),
     ("references", .list [count s.references.keys.length, .bool s.references.keys.isEmpty]),
     ("skipped", texts s.references.skippedUnits),
     ("instances", .list [count s.objects.length, .bool s.objects.isEmpty]),
     ("events", count s.journal.size),
     ("same_id", .bool true)]

end Answer

end HotReload
