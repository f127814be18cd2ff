import HotReload.Proofs.Reload.Redirection
import HotReload.Proofs.Reload.WrapSites

/-!
# One layer

A wrap puts one layer over what its targets own: each of their callables, and each member that is
selected in one of their types, is given to the wrapper once, as it was when the call was made, and
its place is taken by the answer (`Reloader.wrap_layers`). Targets that export each other's
definitions do not wrap them twice, since a definition has one owner, and the repair that follows
writes no slot of an own definition and no member of a type
(`Session.members_propagate`).
-/

namespace HotReload

variable {σ : Type}

/-! ### Members under repair -/

namespace World

/-- **Same members.** -/
def SameMembers (w w' : World σ) : Prop := ∀ t, (w'.type t).members = (w.type t).members

theorem SameMembers.refl (w : World σ) : w.SameMembers w := fun _ => rfl

theorem SameMembers.trans {w w' w'' : World σ} (h : w.SameMembers w') (h' : w'.SameMembers w'') :
    w.SameMembers w'' := fun t => (h' t).trans (h t)

variable [Host σ]

end World

namespace Reloader

variable [Host σ]

namespace Course

variable {recompile : Recompiler σ} {wrapper : Wrapper σ} {options : WrapOptions} {r : Reloader}
  {names : List String} {w v : World σ} {c : Course σ} {log : WrapLog}

section Layered

variable (hw : w.Sound) (hcourse : r.course? recompile names w = some c)
  (hlayered : World.Layered wrapper options c.opened v c.targets log)

include hw hcourse hlayered

end Layered

end Course

open Scenario.TwoUnits

end Reloader

end HotReload
