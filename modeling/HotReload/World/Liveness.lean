import HotReload.DepthFirst
import HotReload.World

/-!
# Liveness

A node of a world is *alive* if it can be reached from the roots: the nodes that the host holds and
the nodes that running code has pinned. References lead from a registry to its units, from a unit to
what it exports, from an object to its type and the contents of its fields, and from a type to its
ancestors.

A weak reference to a node that is not alive reads as absent. Which node is alive changes with every
write, so liveness is computed when it is asked for and never stored. `World.isAtHand` answers for
the roots and for what the host's roots refer to, without a search.

Two sorts of nodes are kept alive by something else than these references: those on a cycle of them,
where counts of references never get to zero, and those that a body of a callable has captured. Such
a node is alive here only if the host holds it as one of its roots. What is stated for any host holds
for hosts that do.
-/

namespace HotReload

/-- What a host state holds on to. -/
class Host (σ : Type) where
  roots : σ → List Node

namespace World

variable {σ : Type}

/-- The nodes that a node refers to. -/
def successors (w : World σ) : Node → List Node
  | .registry r => (w.registry r).units.values.map .unit
  | .unit u => (w.unit u).exports.values.flatMap Value.nodes
  | .object o => .type (w.object o).type :: (w.object o).fields.values.flatMap Value.nodes
  | .type t => (w.type t).ancestors.map .type

/-- True if the node has a cell. -/
def knows (w : World σ) : Node → Bool
  | .registry r => r.index < w.registries.size
  | .unit u => u.index < w.units.size
  | .object o => o.index < w.objects.size
  | .type t => t.index < w.types.size

/-- How many nodes have a cell. -/
def nodeCount (w : World σ) : Nat :=
  w.registries.size + w.units.size + w.objects.size + w.types.size

/-- Where liveness starts. -/
def roots [Host σ] (w : World σ) : List Node := w.pins.members ++ Host.roots w.host

/-- The nodes that are alive. -/
def living [Host σ] (w : World σ) : NumberedSet Node :=
  DepthFirst.visit w.successors w.knows w.nodeCount .empty w.roots

/-- True if running code holds the node, or the host does, or something that the host holds refers
to it. -/
def isAtHand [Host σ] (w : World σ) (n : Node) : Bool :=
  w.knows n && (w.pins.contains n ||
    (Host.roots w.host).any fun r => r = n || (w.knows r && (w.successors r).contains n))

/-- True if the node is alive. -/
def isAlive [Host σ] (w : World σ) (n : Node) : Bool :=
  -- the home of a running body is at hand, so calls need no search
  w.isAtHand n || w.living.contains n

/-- The unit behind a weak reference, if it is alive. -/
def aliveUnit? [Host σ] (w : World σ) (u : Option UnitId) : Option UnitId :=
  u.filter fun u => w.isAlive (.unit u)

end World

end HotReload
