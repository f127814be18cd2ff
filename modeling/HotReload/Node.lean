import HotReload.NumberedSet
import HotReload.Value

/-!
# Nodes

The nodes of a world are what can be alive or dead in it: its units, types, objects and registries.
They are numbered, so sets of them are `NumberedSet Node`.
-/

namespace HotReload

instance : Numbered TypeId where
  number := TypeId.index
  number_inj := by rintro ⟨i⟩ ⟨j⟩ h; exact congrArg _ h

/-- The part of a world that can be alive or dead: what a weak reference can lose. -/
inductive Node where
  | unit (u : UnitId)
  | type (t : TypeId)
  | object (o : ObjectId)
  | registry (r : RegistryId)
  deriving DecidableEq, Repr

/-- The number of a node: the sorts take turns. -/
def Node.number : Node → Nat
  | unit u => 4 * u.index
  | type t => 4 * t.index + 1
  | object o => 4 * o.index + 2
  | registry r => 4 * r.index + 3

instance : Numbered Node where
  number := Node.number
  number_inj {m n} h := by
    rcases m with ⟨⟨i⟩⟩ | ⟨⟨i⟩⟩ | ⟨⟨i⟩⟩ | ⟨⟨i⟩⟩ <;>
      rcases n with ⟨⟨j⟩⟩ | ⟨⟨j⟩⟩ | ⟨⟨j⟩⟩ | ⟨⟨j⟩⟩ <;> simp [Node.number] at h ⊢ <;> omega

/-- The node that a value keeps alive. Nothing observes whether a callable is alive. -/
def Value.nodes : Value → List Node
  | .object o => [.object o]
  | .type t => [.type t]
  | .unit u => [.unit u]
  | _ => []

end HotReload
