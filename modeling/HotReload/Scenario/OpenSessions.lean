import HotReload.Reload.Session
import HotReload.Store

/-!
# Open sessions

The sessions that a scenario has opened itself. A session is known by the name under which it was
opened, until it is finished or the name goes to another one. A step that works in a session keeps
it, and goes on in that very session, even if a script that the step runs takes the name away.

So a name is a reference to a cell, and closing a session forgets the name and not the cell:

* `OpenSessions.session_put`: a write to a session changes no other one, whatever their names are;
* `OpenSessions.find?_add`: a name leads to the session that was opened under it last.
-/

namespace HotReload.Scenario

/-- Identity of a session that a scenario has opened. -/
structure SessionId where
  index : Nat
  deriving DecidableEq, Repr, Inhabited

/-- The **open sessions**: all that were ever opened, the names of those that have one, and an entry
in `users` for every step under way that works in a session. -/
structure OpenSessions where
  cells : Store Session
  names : Table SessionId
  users : List SessionId
  deriving Inhabited

namespace OpenSessions

/-- No sessions at all. -/
def empty : OpenSessions := ⟨.empty, .empty, []⟩

/-- The session that goes by a name. -/
def find? (s : OpenSessions) (name : String) : Option SessionId := s.names.get? name

/-- The session of this identity. -/
def session (s : OpenSessions) (i : SessionId) : Session := s.cells.get i.index

/-- Writes a session. -/
def put (s : OpenSessions) (i : SessionId) (cell : Session) : OpenSessions :=
  { s with cells := s.cells.set i.index cell }

/-- Opens a session under a name, which it takes from the session that had it. -/
def add (s : OpenSessions) (name : String) (cell : Session) : OpenSessions :=
  { s with cells := (s.cells.alloc cell).2, names := s.names.insert name ⟨s.cells.size⟩ }

/-- Takes its name from a session. -/
def close (s : OpenSessions) (name : String) : OpenSessions :=
  { s with names := s.names.erase name }

/-- Notes a step that begins to work in a session. -/
def enter (s : OpenSessions) (i : SessionId) : OpenSessions := { s with users := i :: s.users }

/-- Notes that a step is done with a session. -/
def leave (s : OpenSessions) (i : SessionId) : OpenSessions :=
  { s with users := s.users.erase i }

/-- True if more than one step under way works in a session. -/
def isShared (s : OpenSessions) (i : SessionId) : Bool := 1 < s.users.count i

/-- The sessions that a name or a step under way still needs. -/
def kept (s : OpenSessions) : List Session := (s.names.values ++ s.users).map s.session

/-- The nodes that the open sessions keep alive. -/
def nodes (s : OpenSessions) : List Node := s.kept.flatMap Session.nodes

theorem session_put (s : OpenSessions) (i j : SessionId) (cell : Session) :
    (s.put i cell).session j = if j = i then cell else s.session j := by
  cases i; cases j; simp [put, session, Store.get_set]

theorem find?_add (s : OpenSessions) (name other : String) (cell : Session) :
    (s.add name cell).find? other =
      if other = name then some ⟨s.cells.size⟩ else s.find? other := by
  simp [add, find?, Table.get?_insert]

end OpenSessions

end HotReload.Scenario
