/-!
# Data

A *datum* is what a configuration is read from, whatever the notation it was written in.
-/

namespace HotReload

/-- A **datum**. -/
inductive Datum where
  | null
  | bool (b : Bool)
  | int (n : Int)
  | text (s : String)
  | list (items : List Datum)
  | record (entries : List (String × Datum))
  /-- A number with a fraction, a date or a time: no configuration has one. -/
  | other
  deriving Inhabited

end HotReload
