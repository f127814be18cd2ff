/-!
# Phases of a recompilation

A unit of a batch is pending until its first attempt. An attempt that fails sends it to retrying, as
often as the budget allows; success and final failure end its way through the batch.
-/

namespace HotReload

/-- Where a unit is on its way through a batch. -/
inductive Phase where
  | pending
  | retrying
  | succeeded
  | failed
  deriving DecidableEq, Repr, Inhabited

namespace Phase

/-- The phases that can follow, in the order in which they are listed to a reader. -/
def successors : Phase → List Phase
  | pending | retrying => [succeeded, retrying, failed]
  | succeeded | failed => []

/-- True if one phase can follow the other. -/
def allows (a b : Phase) : Bool := a.successors.contains b

/-- True if no phase can follow. -/
def isTerminal : Phase → Bool
  | succeeded | failed => true
  | pending | retrying => false

/-- The word for a phase. -/
def word : Phase → String
  | pending => "pending"
  | retrying => "retrying"
  | succeeded => "succeeded"
  | failed => "failed"

/-- The phase of a word. -/
def ofWord? : String → Option Phase
  | "pending" => some pending
  | "retrying" => some retrying
  | "succeeded" => some succeeded
  | "failed" => some failed
  | _ => none

/-- What is wrong with a move that is not allowed. -/
def illegalMove (a b : Phase) : String :=
  "illegal unit state transition: " ++ a.word ++ " -> " ++ b.word

/-- Exactly the terminal phases allow no move. -/
theorem isTerminal_iff (a : Phase) : a.isTerminal = true ↔ ∀ b, a.allows b = false := by
  cases a <;> simp [isTerminal, allows, successors]
  all_goals exact ⟨failed, by decide⟩

end Phase

end HotReload
