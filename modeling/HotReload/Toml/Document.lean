import HotReload.Toml.Number

/-!
# Documents

A document is a sequence of statements: an entry with a key and a value, or a header that opens a
table or the next table of a list. `parse` reads them and builds the record that they describe.

A table is *closed* once a header or a value has defined it; only a table that exists because
something inside it was named can still be opened by a header. A table that was made by dotted keys
can be extended by dotted keys and is opened by no header. These rules are `descend` and the
functions that use it.
-/

namespace HotReload.Toml

open Reader

/-- A **table under construction**. -/
inductive Item where
  /-- A value, which cannot be extended. -/
  | value (d : Datum)
  /-- A table: whether it only exists because something inside it was named, whether dotted keys
  made it, and its entries. -/
  | table (isImplicit isDotted : Bool) (entries : List (String × Item))
  /-- The tables of a list, in order. -/
  | tables (items : List (List (String × Item)))
  deriving Inhabited

/-- The entries of a table under construction. -/
abbrev Entries := List (String × Item)

/-- Replaces the entry of a name, or appends one. -/
def put (name : String) (item : Item) : Entries → Entries
  | [] => [(name, item)]
  | e :: es => if e.1 == name then (name, item) :: es else e :: put name item es

/-- **Descent.** Applies `change` to the table that a path leads to. `byDots` tells the path of a
dotted key from that of a header: it marks the tables that are made on the way, and it must not
enter a table that is closed. `change` is told whether dotted keys made the table that it gets. -/
def descend (byDots : Bool) (change : Bool → Entries → Option Entries) :
    List String → Bool → Entries → Option Entries
  | [], dotted, es => change dotted es
  | name :: path, _, es =>
    match es.lookup name with
    | none => do
      let inner ← descend byDots change path byDots []
      return put name (.table true byDots inner) es
    | some (.value _) => none
    | some (.table isImplicit isDotted inner) =>
      -- a closed table takes no entries from elsewhere
      if byDots && !isImplicit then none
      else do
        let inner ← descend byDots change path isDotted inner
        return put name (.table isImplicit isDotted inner) es
    | some (.tables items) =>
      -- a path through a list goes on in its last table
      match items.getLast? with
      | none => none
      | some last => do
        let last ← descend byDots change path false last
        return put name (.tables (items.dropLast ++ [last])) es

/-- Adds an entry under a dotted key. The table it goes into has to be made by dotted keys exactly
if the key is dotted, and must not have the name yet. -/
def addEntry (keys : List String) (d : Datum) (es : Entries) : Option Entries :=
  match keys.getLast? with
  | none => none
  | some name =>
    let path := keys.dropLast
    descend true
      (fun isDotted es =>
        if isDotted == path.isEmpty || (es.lookup name).isSome then none
        else some (es ++ [(name, .value d)]))
      path false es

/-- Adds entries one after the other. -/
def addEntries (entries : List (List String × Datum)) (es : Entries) : Option Entries :=
  entries.foldlM (fun es e => addEntry e.1 e.2 es) es

/-- The part of a document under one header. -/
structure Section where
  isList : Bool
  path : List String
  entries : List (List String × Datum)
  deriving Inhabited

/-- Adds the table of a section to the table that its header names a part of. -/
def openTable (s : Section) (name : String) (es : Entries) : Option Entries :=
  if s.isList then do
    let new ← addEntries s.entries []
    match es.lookup name with
    | none => return put name (.tables [new]) es
    | some (.tables items) => return put name (.tables (items ++ [new])) es
    | some _ => none
  else
    match es.lookup name with
    | none => do return put name (.table false false (← addEntries s.entries [])) es
    -- named before as a part of a path, and not defined yet
    | some (.table true false inner) => do
      return put name (.table false false (← addEntries s.entries inner)) es
    | some _ => none

/-- Adds a section to a document. -/
def addSection (es : Entries) (s : Section) : Option Entries :=
  match s.path.getLast? with
  | none => none
  | some name => descend false (fun _ es => openTable s name es) s.path.dropLast false es

mutual

/-- The datum that an item describes. -/
def Item.toDatum : Item → Datum
  | .value d => d
  | .table _ _ entries => .record (entriesData entries)
  | .tables items => .list (tablesData items)

/-- The data of the entries of a table. -/
def entriesData : List (String × Item) → List (String × Datum)
  | [] => []
  | (name, item) :: rest => (name, item.toDatum) :: entriesData rest

/-- The data of a list of tables. -/
def tablesData : List (List (String × Item)) → List Datum
  | [] => []
  | es :: rest => .record (entriesData es) :: tablesData rest

end

/-! ### Values -/

/-- The items of an array up to its closing bracket. A comma may follow the last one. -/
def arrayItems (value : Reader Datum) : Reader Datum := do
  char '['
  filler
  let items ← optional (separated (do char ','; filler) do
    let d ← value
    filler
    return d)
  if items.isSome then
    discard (optional (char ','))
    filler
  char ']'
  return .list (items.getD [])

/-- An entry: a key, an equals sign and a value. -/
def entry (value : Reader Datum) : Reader (List String × Datum) := do
  let path ← key
  char '='
  blanks
  let d ← value
  return (path, d)

/-- A table on one line. -/
def inlineTable (value : Reader Datum) : Reader Datum := do
  char '{'
  blanks
  let entries ← optional (separated (do char ','; blanks) do
    let e ← entry value
    blanks
    return e)
  char '}'
  let table ← ofOption (addEntries (entries.getD []) [])
  return .record (entriesData table)

/-- A value, with at most `depth` arrays and tables around each other. -/
def valueWithin : Nat → Reader Datum
  | 0 => plain
  | depth + 1 => arrayItems (valueWithin depth) <|> inlineTable (valueWithin depth) <|> plain
where
  /-- A value that holds no others. -/
  plain : Reader Datum :=
    (do return .text (← string)) <|> (do word "true"; return .bool true) <|>
      (do word "false"; return .bool false) <|> number

/-- A value. -/
def value : Reader Datum := valueWithin nestingLimit

/-! ### Statements -/

/-- An entry on a line of its own. -/
def entryLine : Reader (List String × Datum) := do
  let e ← entry value
  lineEnd
  return e

/-- A line without a statement: blank, or a comment. -/
def emptyLine : Reader Unit :=
  (do blanks; newline) <|> (do blanks; comment; newline <|> atEnd)

/-- The entries up to the next header or the end. -/
def entryLines : Reader (List (List String × Datum)) := do
  let lines ← many ((do emptyLine; return none) <|> (do blanks; return some (← entryLine)))
  return lines.filterMap id

/-- A header: whether it opens a table of a list, and the path of the table. -/
def header : Reader (Bool × List String) := do
  blanks
  char '['
  -- two brackets with nothing between them open a table of a list
  let isList := (← peek?) == some '['
  if isList then char '['
  let path ← key
  char ']'
  if isList then char ']'
  lineEnd
  return (isList, path)

/-- A header with the entries under it. -/
def headedSection : Reader Section := do
  let (isList, path) ← header
  return ⟨isList, path, ← entryLines⟩

/-- A whole document. A byte order mark may lead it. -/
def document : Reader (List (List String × Datum) × List Section) := do
  discard (optional (char '\uFEFF'))
  let entries ← entryLines
  let sections ← many headedSection
  blanks
  atEnd
  return (entries, sections)

/-- **Parsing** of a document. -/
def parse (source : String) : Option Datum := do
  let ((entries, sections), _) ← StateT.run document source.toList
  let root ← addEntries entries []
  let root ← sections.foldlM addSection root
  return .record (entriesData root)

end HotReload.Toml
