import HotReload.NumberedSet

/-!
# Depth-first search

A search over a graph that is given by a successor function on numbered nodes. The nodes still to be
visited are kept in a list, the successors of a visited node going to its front, so nodes are
visited in left-to-right preorder and each of them once.

Nodes that fail the test `known` are passed over. The searches are structural in a bound on the
number of visits, and the number of known nodes is a bound that is never reached before the search
is over.

* `DepthFirst.visit` collects the nodes that can be reached;
* `DepthFirst.first?` stops at the first node that answers.
-/

namespace HotReload.DepthFirst

variable {α β : Type} [Numbered α]

/-- The pending nodes from the first one on that is known and not seen yet. -/
def skip (known : α → Bool) (seen : NumberedSet α) (pending : List α) : List α :=
  pending.dropWhile fun a => !known a || seen.contains a

/-- **Reachable nodes.** Adds to `seen` the known nodes that can be reached from `pending` without
passing through `seen`, at most `bound` of them. -/
def visit (next : α → List α) (known : α → Bool) :
    Nat → NumberedSet α → List α → NumberedSet α
  | 0, seen, _ => seen
  | bound + 1, seen, pending =>
    match skip known seen pending with
    | [] => seen
    -- successors go to the front: depth first, from left to right
    | a :: rest => visit next known bound (seen.insert a) (next a ++ rest)

/-- **First answer.** Visits nodes in the same order until `answer` has a value for one. -/
def first? (next : α → List α) (known : α → Bool) (answer : α → Option β) :
    Nat → NumberedSet α → List α → Option β
  | 0, _, _ => none
  | bound + 1, seen, pending =>
    match skip known seen pending with
    | [] => none
    -- the same order as in `visit`, and the answer of the node itself comes first
    | a :: rest =>
      match answer a with
      | some b => some b
      | none => first? next known answer bound (seen.insert a) (next a ++ rest)

/-- A node is only visited if it is known and was not seen before. -/
theorem head_skip {known : α → Bool} {seen : NumberedSet α} {pending rest : List α} {a : α}
    (h : skip known seen pending = a :: rest) : known a = true ∧ seen.contains a = false := by
  have hp := List.head?_dropWhile_not (fun a => !known a || seen.contains a) pending
  unfold skip at h
  rw [h] at hp
  simpa using hp

/-- What was seen stays seen. -/
theorem contains_visit_of_contains {next : α → List α} {known : α → Bool} {a : α} (bound : Nat)
    (seen : NumberedSet α) (pending : List α) (h : seen.contains a = true) :
    (visit next known bound seen pending).contains a = true := by
  induction bound generalizing seen pending with
  | zero => exact h
  | succ bound ih =>
    unfold visit
    split
    · exact h
    · exact ih _ _ ((seen.contains_insert _ _).2 (.inr h))

end HotReload.DepthFirst
