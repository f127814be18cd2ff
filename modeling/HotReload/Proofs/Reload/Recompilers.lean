import HotReload.Proofs.World.Operations
import HotReload.Scenario.TwoUnits

/-!
# Some lawful recompilers

A recompiler that is made of operations of the object model is lawful. Five that are of use
because what they do can be said in a line: `Recompiler.unchanged` returns what a unit exports,
`Recompiler.storing` returns a number, `Recompiler.renewing` makes one callable anew,
`Recompiler.importing` copies an export of another unit, and `Recompiler.extending` derives a new
type from one. `Recompiler.onUnit` treats one unit differently from the others.

`TwoUnits.bare` is a world to run them on. `TwoUnits.refurnished` is one in which a propagation has
something of each kind to do.
-/

namespace HotReload

namespace Recompiler

variable {σ : Type}

/-- Returns the exports of the unit as they are. -/
def unchanged : Recompiler σ := fun u _ w => (.ok (w.exports u), w)

/-- To return the current exports is lawful. -/
theorem lawful_unchanged : (unchanged : Recompiler σ).Lawful where
  sound _ _ _ hw := hw
  later _ _ w _ := .refl w
  table u r w table hw h e he := by
    cases h
    exact hw.exports u e.1 e.2 ((Table.get?_eq_some_iff _ _ _).mpr he)
  pins _ _ _ := rfl

/-- Returns a table with one export, which is a number. -/
def storing (name : String) (n : Int64) : Recompiler σ := fun _ _ w =>
  (.ok (.ofList [(name, .int n)]), w)

/-- So is to return a number. -/
theorem lawful_storing (name : String) (n : Int64) :
    (storing name n : Recompiler σ).Lawful where
  sound _ _ _ hw := hw
  later _ _ w _ := .refl w
  table u r w table _ h e he := by
    cases h
    obtain rfl : e = (name, .int n) := List.mem_singleton.mp he
    rfl
  pins _ _ _ := rfl

/-- Makes a new callable of the given name, and returns a table with this one export. -/
def renewing (name : String) : Recompiler σ := fun u _ w =>
  let (c, w) := w.newCallable ⟨(w.unit u).name, name, some u, .literal .nil, none⟩
  (.ok (.ofList [(name, .callable c)]), w)

/-- And a new callable. -/
theorem lawful_renewing (name : String) : (renewing name : Recompiler σ).Lawful where
  sound _ _ _ hw := World.sound_newCallable hw _
  later _ _ w _ := w.later_newCallable _
  table u r w table hw h e he := by
    cases h
    have hentry : e = (name, .callable ⟨w.callables.size⟩) := List.mem_singleton.mp he
    subst hentry
    -- the callable that is returned is the last one of the store
    have hsize : (renewing name u r w).2.callables.size = w.callables.size + 1 :=
      w.callables.size_alloc _
    rw [World.hasValue, World.hasDefinition, decide_eq_true_eq, hsize]
    exact Nat.lt_succ_self _
  pins _ _ _ := rfl

/-- Returns a table with one export `x`: what the other unit exports as `name` just then. -/
def importing (other name x : String) : Recompiler σ := fun _ r w =>
  match (w.unit? r other).bind fun v => w.export? v name with
  | some v => (.ok (.ofList [(x, v)]), w)
  | none => (.error (other ++ "." ++ name ++ " is not defined"), w)

/-- This recompiler makes nothing. -/
theorem importing_world (other name x : String) (u : UnitId) (r : RegistryId) (w : World σ) :
    (importing other name x u r w).2 = w := by
  unfold importing
  split <;> rfl

/-- To return what another unit exports is lawful. -/
theorem lawful_importing (other name x : String) :
    (importing other name x : Recompiler σ).Lawful where
  sound u r w hw := by rwa [importing_world]
  later u r w _ := by
    rw [importing_world]
    exact .refl w
  table u r w table hw h e he := by
    rw [importing_world]
    unfold importing at h
    split at h
    case h_1 v hv =>
      cases h
      obtain rfl : e = (x, v) := List.mem_singleton.mp he
      -- what a unit exports exists, whichever unit it is
      obtain ⟨u', -, hexport⟩ := Option.bind_eq_some_iff.mp hv
      exact hw.exports u' name v hexport
    case h_2 => cases h
  pins u r w := by rw [importing_world]

/-- Makes a new type of the given name, with what the other unit exports as `base` just then for an
ancestor, and returns a table with this one export. -/
def extending (name other base : String) : Recompiler σ := fun u r w =>
  match (w.unit? r other).bind fun v => w.export? v base with
  | some (.definition (.type t)) =>
    let (new, w) := w.declareType ⟨(w.unit u).name, name, u, .dynamic, [], [], .empty⟩ [t]
    (.ok (.ofList [(name, .type new)]), w)
  | _ => (.error (other ++ "." ++ base ++ " is not a type"), w)

/-- It makes a type with an ancestor that exists, or it fails and does nothing. -/
theorem extending_cases (name other base : String) (u : UnitId) (r : RegistryId) {w : World σ}
    (hw : w.Sound) :
    (∃ cell t, t.index < w.types.size ∧ extending name other base u r w =
        (.ok (.ofList [(name, .type ⟨w.types.size⟩)]), (w.declareType cell [t]).2)) ∨
      ∃ e, extending name other base u r w = (.error e, w) := by
  unfold extending
  split
  · next t ht =>
    obtain ⟨v, -, hexport⟩ := Option.bind_eq_some_iff.mp ht
    exact .inl ⟨_, t, of_decide_eq_true (hw.exports v base _ hexport), rfl⟩
  · exact .inr ⟨_, rfl⟩

/-- To declare a type that extends an existing one is lawful. -/
theorem lawful_extending (name other base : String) :
    (extending name other base : Recompiler σ).Lawful where
  sound u r w hw := by
    obtain ⟨cell, t, ht, heq⟩ | ⟨e, heq⟩ := extending_cases name other base u r hw <;> rw [heq]
    · exact World.sound_declareType hw cell fun s hs => List.mem_singleton.mp hs ▸ ht
    · exact hw
  later u r w hw := by
    obtain ⟨cell, t, -, heq⟩ | ⟨e, heq⟩ := extending_cases name other base u r hw <;> rw [heq]
    · exact w.later_declareType cell [t]
    · exact .refl w
  table u r w table hw h e he := by
    obtain ⟨cell, t, -, heq⟩ | ⟨e, heq⟩ := extending_cases name other base u r hw <;>
      rw [heq] at h ⊢
    · cases h
      obtain rfl : e = (name, .type ⟨w.types.size⟩) := List.mem_singleton.mp he
      exact decide_eq_true (w.lt_size_types_declareType cell [t])
    · cases h
  pins u r w := by
    unfold extending
    split
    · exact World.pins_declareType _ _ _
    · rfl

/-- Treats the unit of the given name by `special`, and all others by `rest`. -/
def onUnit (name : String) (special rest : Recompiler σ) : Recompiler σ := fun u r w =>
  if (w.unit u).name = name then special u r w else rest u r w

/-- Two lawful recompilers may share the units between them. -/
theorem lawful_onUnit (name : String) {special rest : Recompiler σ} (hspecial : special.Lawful)
    (hrest : rest.Lawful) : (onUnit name special rest).Lawful := by
  -- on each single call it is one of the two
  have hcases : ∀ u r (w : World σ), onUnit name special rest u r w = special u r w ∨
      onUnit name special rest u r w = rest u r w := by
    intro u r w
    unfold onUnit
    split
    · exact .inl rfl
    · exact .inr rfl
  refine ⟨fun u r w hw => ?_, fun u r w hw => ?_, fun u r w table hw h => ?_, fun u r w => ?_⟩ <;>
    obtain heq | heq := hcases u r w <;> rw [heq]
  · exact hspecial.sound u r w hw
  · exact hrest.sound u r w hw
  · exact hspecial.later u r w hw
  · exact hrest.later u r w hw
  · exact hspecial.table u r w table hw (heq ▸ h)
  · exact hrest.table u r w table hw (heq ▸ h)
  · exact hspecial.pins u r w
  · exact hrest.pins u r w

end Recompiler

namespace Scenario.TwoUnits

/-- The fixture before anything has been compiled: units `b` and `a` without exports. -/
def bare : World Fixture :=
  let w : World Fixture := .initial default
  let (h, w) := w.newHeap
  let (r, w) := w.newRegistry h
  let (b, w) := w.load r "b"
  let (a, w) := w.load r "a"
  { w with host := ⟨r, a, b, .empty, 0⟩ }

/-- A reloader over the fixture, configured as a host that sets nothing would. -/
def reloader : Reloader := .overHeap ⟨0⟩ ⟨0⟩ .standard

/-- Unit `b` exports three types, with objects of the first two, and a callable. Unit `a` imports
the first type and the callable, and derives a type from the first one. -/
def furnished : World Fixture :=
  let (c, w) := bare.declareType ⟨"b", "C", ⟨0⟩, .dynamic, [], [], .empty⟩ []
  let (e, w) := w.declareType ⟨"b", "E", ⟨0⟩, .fixed ["x"], [], [], .empty⟩ []
  let (g, w) := w.declareType ⟨"b", "G", ⟨0⟩, .dynamic, [], [], .empty⟩ []
  let (d, w) := w.declareType ⟨"a", "D", ⟨1⟩, .dynamic, [], [], .empty⟩ [c]
  let (_, w) := w.newObject c
  let (_, w) := w.newObject e
  let (f, w) := w.newCallable ⟨"b", "f", some ⟨0⟩, .literal .nil, none⟩
  let w := w.replaceExports ⟨0⟩
    (.ofList [("C", .type c), ("E", .type e), ("G", .type g), ("f", .callable f)])
  w.replaceExports ⟨1⟩ (.ofList [("D", .type d), ("C", .type c), ("f", .callable f)])

/-- The same after `b` has been given other types, the second one with another slot, and neither a
third type nor a callable. -/
def refurnished : World Fixture :=
  let w := (furnished.declareType ⟨"b", "C", ⟨0⟩, .dynamic, [], [], .empty⟩ []).2
  let w := (w.declareType ⟨"b", "E", ⟨0⟩, .fixed ["x", "y"], [], [], .empty⟩ []).2
  w.replaceExports ⟨0⟩ (.ofList [("C", .type ⟨4⟩), ("E", .type ⟨5⟩)])

/-- The session that is opened on `b` there, with both objects enumerated. -/
def furnishedSession : Session :=
  match (Session.start furnished [⟨0⟩] ⟨0⟩ (.listed [⟨0⟩, ⟨1⟩]) .standard).1 with
  | .ok s => s
  | .error _ => default

/-- What was furnished is still there. -/
theorem later_refurnished : furnished.Later refurnished :=
  ((furnished.later_declareType _ _).trans (World.later_declareType _ _ _)).trans
    (World.later_replaceExports _ _ _)

end Scenario.TwoUnits

end HotReload
