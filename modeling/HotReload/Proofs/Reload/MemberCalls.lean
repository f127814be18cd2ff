import HotReload.Proofs.Reload.Holding
import HotReload.Proofs.World.Subtyping

/-!
# Calling members

A member can be called through an object or through a type. Both calls have the type resolve the
name, and the binding of the member that is found says what goes before the arguments. A call
through an object has two things to offer that the call through its type lacks: the object as a
receiver, and a hold on the object while the member runs.

So the two calls are the same once the object is handed over as an argument where a member is bound
to it (`World.handing`), and the caller holds the object, as whoever calls through it does
(`World.callMethod_eq_callMember`). A caller that holds it already need not do so again, since
calls are impartial. A member that is bound to the type receives the type that was asked, however
far up it has been found.
-/

namespace HotReload

variable {σ : Type}

namespace Act

variable {α : Type}

/-- What actions do while the same is held is the same if it is the same from there. -/
theorem holding_congr {a b : Act σ α} {nodes : List Node} {w : World σ}
    (h : a.run.run (w.pin nodes) = b.run.run (w.pin nodes)) :
    (a.holding nodes).run.run w = (b.holding nodes).run.run w := by
  show ((a.run.run (w.pin nodes)).1, (a.run.run (w.pin nodes)).2.repinned w.pins) = _
  rw [h]
  rfl

/-- What is held during an action that changes nothing is let go of, and nothing has changed. -/
theorem holding_of_idle {a : Act σ α} {nodes : List Node} {w : World σ} {r : Except CallError α}
    (h : a.run.run (w.pin nodes) = (r, w.pin nodes)) : (a.holding nodes).run.run w = (r, w) := by
  show ((a.run.run (w.pin nodes)).1, (a.run.run (w.pin nodes)).2.repinned w.pins) = _
  rw [h]
  rfl

end Act

namespace World

/-! ### What is resolved -/

section Resolved

variable {run : Runner σ} {o : Option ObjectId} {t : TypeId} {name : String} {args : List Value}
  {w : World σ}

theorem callResolved_of_some {m : Member} (h : w.resolve? t name = some m) :
    (callResolved run o t name args).run.run w =
      ((run m.callable (receive m.binding o t args)).holding [.type t]).run.run w := by
  rw [callResolved, Act.run_run_get_bind, h]

theorem callResolved_of_none (h : w.resolve? t name = none) :
    (callResolved run o t name args).run.run w =
      (.error (.noSuchMember (w.typeName t).text name), w) := by
  rw [callResolved, Act.run_run_get_bind, h]
  rfl

end Resolved

/-! ### Objects as arguments -/

/-- **The arguments that make up for a receiver.** The object leads them if the member that the type
resolves is bound to objects. If it is bound to the type or to nothing, or if there is none, they
are the same. -/
def handing (w : World σ) (o : ObjectId) (t : TypeId) (name : String) (args : List Value) :
    List Value :=
  match (w.resolve? t name).map Member.binding with
  | some .onObject => .object o :: args
  | some .onType | some .static | none => args

/-- **A receiver is an argument.** -/
theorem callResolved_handing (run : Runner σ) (o : ObjectId) (t : TypeId) (name : String)
    (args : List Value) (w : World σ) :
    (callResolved run (some o) t name args).run.run w =
      (callMember run t name (w.handing o t name args)).run.run w := by
  rw [callMember]
  cases hm : w.resolve? t name with
  | none => rw [callResolved_of_none hm, callResolved_of_none hm]
  | some m =>
    rw [callResolved_of_some hm, callResolved_of_some hm, handing, hm]
    obtain ⟨c, binding⟩ := m
    cases binding <;> rfl

/-- A call through an object holds it. -/
theorem callMethod_eq_holding (run : Runner σ) (o : ObjectId) (name : String) (args : List Value)
    (w : World σ) :
    (callMethod run o name args).run.run w =
      ((callMember run (w.object o).type name
        (w.handing o (w.object o).type name args)).holding [.object o]).run.run w := by
  show ((callResolved run (some o) (w.object o).type name args).holding [.object o]).run.run w = _
  -- what a name resolves to is not a matter of pins
  exact Act.holding_congr (callResolved_handing run o _ name args (w.pin [.object o]))

variable [Host σ]

/-- **Calls through an object and through its type agree**, in result, error and effects, whatever
has become of the object, its type and the members before.

* However callables are run, a call through an object is the call through its current type by a
  caller that holds the object, with the object as first argument if the member is bound to objects
  and with the same arguments in all other cases.
* If running code or the host holds the object, the call through the type needs no further hold.
* A member that is bound to the type is declared by a type that ancestor lists lead to, and
  receives, before the arguments, the type that was asked.
* If there is no such member both calls fail with the error that names the type and the member, and
  do nothing. -/
theorem callMethod_eq_callMember (w : World σ) (o : ObjectId) (name : String)
    (args : List Value) :
    let t := (w.object o).type
    let args' := w.handing o t name args
    (∀ run : Runner σ,
      (callMethod run o name args).run.run w =
        ((callMember run t name args').holding [.object o]).run.run w) ∧
    (.object o ∈ w.roots →
      (callMethod World.run o name args).run.run w =
        (callMember World.run t name args').run.run w) ∧
    (∀ m, w.resolve? t name = some m → m.binding = .onType →
      (∃ s, Relation.ReflTransGen w.Lists t s ∧ w.ownMember? s name = some m) ∧
      ∀ run : Runner σ,
        (callMember run t name args).run.run w =
          ((run m.callable (.type t :: args)).holding [.type t]).run.run w ∧
        (callMethod run o name args).run.run w =
          (((run m.callable (.type t :: args)).holding [.type t]).holding
            [.object o]).run.run w) ∧
    (w.resolve? t name = none → ∀ run : Runner σ,
      (callMethod run o name args).run.run w =
        (.error (.noSuchMember (w.typeName t).text name), w) ∧
      (callMember run t name args).run.run w =
        (.error (.noSuchMember (w.typeName t).text name), w)) := by
  intro t args'
  have hcall : ∀ run : Runner σ, (callMethod run o name args).run.run w =
      ((callMember run t name args').holding [.object o]).run.run w :=
    fun run => callMethod_eq_holding run o name args w
  refine ⟨hcall, fun hroot => ?_, fun m hm hbinding => ⟨exists_path_of_resolve? hm, fun run => ?_⟩,
    fun hnone run => ⟨?_, callResolved_of_none hnone⟩⟩
  · -- a root is alive anyway, and the evaluator does not look at pins
    have hcallMember : (callMember World.run t name args' : Act σ Value).Impartial :=
      impartial_callMember impartial_run t name args'
    rw [hcall]
    exact hcallMember.holding_root fun n hn => List.mem_singleton.mp hn ▸ hroot
  · have hasked : ∀ v : World σ, v.resolve? t name = some m →
        (callMember run t name args).run.run v =
          ((run m.callable (.type t :: args)).holding [.type t]).run.run v := by
      intro v hv
      rw [callMember, callResolved_of_some hv, hbinding]
      rfl
    -- a member on the type is not handed the object
    have hsame : args' = args := by
      show w.handing o t name args = args
      rw [handing, hm, Option.map_some, hbinding]
    refine ⟨hasked w hm, ?_⟩
    rw [hcall, hsame]
    exact Act.holding_congr (hasked (w.pin [.object o]) hm)
  · have hpinned : (w.pin [.object o]).resolve? t name = none := hnone
    show ((callResolved run (some o) t name args).holding [.object o]).run.run w = _
    exact Act.holding_of_idle (callResolved_of_none hpinned)

section Example

open Scenario.TwoUnits

/-- The opening world in which `C` has a member bound to the type that returns its receiver, while
running code holds the object whose type is `D`. -/
def introspective : World Fixture :=
  let (c, w) := opening.newCallable ⟨"b", "self", some opening.host.b, .arg 0, none⟩
  (w.setMember ⟨0⟩ "self" ⟨c, .onType⟩).pin [.object ⟨1⟩]

/-- The inherited member receives `D`, through the object and through the type. The method that is
bound to objects is called with the object as an argument. -/
theorem callMethod_eq_callMember_inherited :
    (introspective.ownMember? ⟨1⟩ "self" = none ∧
      ∃ s, Relation.ReflTransGen introspective.Lists ⟨1⟩ s ∧
        introspective.ownMember? s "self" = some ⟨⟨4⟩, .onType⟩) ∧
    .object ⟨1⟩ ∈ introspective.roots ∧
    (callMethod World.run ⟨1⟩ "self" [.nil]).run.run introspective =
      (callMember World.run ⟨1⟩ "self" [.nil]).run.run introspective ∧
    ((callMember World.run ⟨1⟩ "self" [.nil]).run.run introspective).1 = .ok (.type ⟨1⟩) ∧
    (callMethod World.run ⟨1⟩ "m" []).run.run introspective =
      (callMember World.run ⟨1⟩ "m" [.object ⟨1⟩]).run.run introspective ∧
    (callMethod World.run ⟨1⟩ "gone" []).run.run introspective =
      (.error (.noSuchMember "a.D" "gone"), introspective) := by
  have htype : (introspective.object ⟨1⟩).type = ⟨1⟩ := by rfl
  have hroot : .object ⟨1⟩ ∈ introspective.roots := by decide +kernel
  -- one member that takes the type, one that takes the object, and one that there is not
  obtain ⟨-, hself, hbound, -⟩ := callMethod_eq_callMember introspective ⟨1⟩ "self" [.nil]
  obtain ⟨-, hm, -, -⟩ := callMethod_eq_callMember introspective ⟨1⟩ "m" []
  obtain ⟨-, -, -, hgone⟩ := callMethod_eq_callMember introspective ⟨1⟩ "gone" []
  rw [htype] at hself hbound hm hgone
  have hselfArgs : introspective.handing ⟨1⟩ ⟨1⟩ "self" [.nil] = [.nil] := by decide +kernel
  have hmArgs : introspective.handing ⟨1⟩ ⟨1⟩ "m" [] = [.object ⟨1⟩] := by decide +kernel
  rw [hselfArgs] at hself
  rw [hmArgs] at hm
  have hname : (introspective.typeName ⟨1⟩).text = "a.D" := by decide +kernel
  have hresolve : introspective.resolve? ⟨1⟩ "self" = some ⟨⟨4⟩, .onType⟩ := by decide +kernel
  refine ⟨⟨by decide +kernel, (hbound _ hresolve rfl).1⟩, hroot, hself hroot, by rfl, hm hroot, ?_⟩
  rw [← hname]
  exact (hgone (by decide +kernel) World.run).1

end Example

end World

end HotReload
