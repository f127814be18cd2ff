import HotReload.Scenario.Answer

/-!
# Steps on a single table or journal

Scenarios that need no units: they go through the operations of a table of scalars, of a journal, or
of a sum of counts.
-/

namespace HotReload.Scenario

/-! ### Tables -/

/-- A step on a table. -/
inductive TableStep where
  | insert (name : String) (v : Value)
  | put (name : String) (v : Value)
  | get (name : String)
  | remove (name : String)
  | contains (name : String)
  /-- Asks whether the table has the entries of another one. -/
  | compare (other : Table Value)
  | names
  | describe
  deriving Inhabited

/-- A world without cells, in which scalars are described. -/
def bareWorld : World Unit := .initial ()

/-- A value that may be absent. -/
def scalar? (v : Option Value) : Answer := .present? (v.map (.value bareWorld))

/-- Performs a step on a table. -/
def TableStep.perform (t : Table Value) : TableStep → Answer × Table Value
  | insert name v => (scalar? (t.get? name), t.insert name v)
  | put name v => (.null, t.insert name v)
  | get name => (scalar? (t.get? name), t)
  | remove name => (scalar? (t.get? name), t.erase name)
  | contains name => (.bool (t.contains name), t)
  | compare other => (.bool (t.agrees other), t)
  | names => (.texts t.names, t)
  | describe => (.text (bareWorld.describeTable t), t)

/-- The answers of steps on a table, each with the table after it, and the table at the end. -/
def tableAnswers : List TableStep → Table Value → List Answer × Table Value
  | [], t => ([], t)
  | step :: rest, t =>
    let (result, t) := step.perform t
    let (answers, last) := tableAnswers rest t
    (.record
      [("result", result),
       ("entries", .table bareWorld t),
       ("len", .count t.size),
       ("empty", .bool (t.size == 0))] :: answers, last)

/-- The kinds of the values of a table. -/
def kindsAnswer (t : Table Value) : Answer := .list (t.entries.map fun e => .texts [e.1, e.2.kind])

/-! ### Journals -/

/-- A step on a journal. -/
inductive JournalStep where
  | record (level : Level) (unit : String) (event : Event)
  | events
  | eventsFor (unit : String)
  | sessionsMatch
  deriving Inhabited

/-- Performs a step on a journal. All entries of a journal belong to one session. -/
def JournalStep.perform (j : Journal) : JournalStep → Answer × Journal
  | record level unit event =>
    let (seq, j) := j.record level unit event
    (.record [("seq", .count seq), ("len", .count j.size), ("empty", .bool (j.size == 0))], j)
  | events => (.entries j.entries, j)
  | eventsFor unit => (.entries (j.entriesFor unit), j)
  | sessionsMatch => (.bool true, j)

/-- The answers of steps on a journal. -/
def journalAnswers : List JournalStep → Journal → List Answer
  | [], _ => []
  | step :: rest, j =>
    let (a, j) := step.perform j
    a :: journalAnswers rest j

/-! ### Counts -/

/-- The largest count. -/
def maxCount : Nat := UInt64.size - 1

/-- The answers of adding counts one after the other, none if a sum gets too large. -/
def sumAnswers : List Stats → Stats → Option (List Answer)
  | [], _ => some []
  | s :: rest, total =>
    let total := total + s
    if total.fits maxCount then (sumAnswers rest total).map (.statsAndZero total :: ·) else none

end HotReload.Scenario
