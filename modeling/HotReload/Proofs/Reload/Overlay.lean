import HotReload.Proofs.Reload.Redirection
import HotReload.Proofs.Repair.Lineage

/-!
# What a wrap lays over a unit

The callables that a unit owns and exports are wrapped, and their importers are redirected by
qualified name. Where no two definitions of the unit share a name (`World.NamedApart`) nothing is
redirected to something else than it should be, and no type is taken for an old version of another
one. Then all that a wrap by a discreet wrapper has done is to write, in some slots, what has been
made of a callable in the place of this callable (`World.Overlaid`).

What has been made of a callable is new if the wrapper is *fresh* (`Wrapper.Fresh`). So a slot that
holds it has been written, and whoever asks for slots with stale definitions finds the same slots
before and after the wrap, with definitions of the same names (`World.Overlaid.holdsStale`,
`World.Overlaid.of_holdsStale`).
-/

namespace HotReload

variable {σ : Type}

/-- **Fresh.** What the wrapper returns did not exist when it was called. -/
def Wrapper.Fresh (wrapper : Wrapper σ) : Prop :=
  ∀ c name (w : World σ), w.hasDefinition (.callable (wrapper c name w).1) = false

/-- A wrapper that makes one callable and returns it is fresh. -/
theorem Wrapper.fresh_of_newCallable {cell : CallableId → World σ → Callable} :
    Wrapper.Fresh (fun c _ w => w.newCallable (cell c w) : Wrapper σ) :=
  fun _ _ w => decide_eq_false (Nat.lt_irrefl w.callables.size)

namespace World

/-! ### Names of own definitions -/

/-- **Named apart.** Definitions of one name that `u` owns and exports are one definition, under
however many names it is exported. -/
def NamedApart (w : World σ) (u : UnitId) : Prop :=
  ∀ e ∈ w.ownExports u, ∀ e' ∈ w.ownExports u, w.nameOf e.2 = w.nameOf e'.2 → e.2 = e'.2

instance (w : World σ) (u : UnitId) : Decidable (w.NamedApart u) :=
  inferInstanceAs (Decidable (∀ e ∈ w.ownExports u, ∀ e' ∈ w.ownExports u, _))

namespace NamedApart

variable {w : World σ} {u : UnitId}

/-- Each own definition claims its name. -/
theorem claimant?_eq (h : w.NamedApart u) {e : String × Definition} (he : e ∈ w.ownExports u) :
    w.claimant? u (w.nameOf e.2) = some e.2 := by
  obtain ⟨hx, howner⟩ := w.mem_ownExports.mp he
  obtain ⟨d, hclaim⟩ := w.claimant?_isSome hx howner
  obtain ⟨hname, hunit, y, hy⟩ := w.claimant?_spec hclaim
  have hd : (y, d) ∈ w.ownExports u := w.mem_ownExports.mpr ⟨hy, hname ▸ hunit⟩
  exact hclaim.trans (congrArg some (h (y, d) hd e he hname))

/-- Each own type succeeds itself. -/
theorem successor?_eq (h : w.NamedApart u) {t : TypeId} (ht : t ∈ typesAmong (w.ownExports u)) :
    w.successor? (typesAmong (w.ownExports u)) t = some t := by
  obtain ⟨x, hx⟩ := Snapshot.mem_typesAmong.mp ht
  have howner := (w.mem_ownExports.mp hx).2
  -- the type itself bears its name, and no other does
  cases hsucc : w.successor? (typesAmong (w.ownExports u)) t with
  | none =>
    have hno := List.find?_eq_none.mp hsucc t ht
    simp at hno
  | some new =>
    obtain ⟨y, hy⟩ := Snapshot.mem_typesAmong.mp (List.mem_of_find?_eq_some hsucc)
    have hname : w.typeName new = w.typeName t := typeName_of_successor? hsucc howner
    have heq := h (y, .type new) hy (x, .type t) hx hname
    rw [Definition.type.inj heq]

end NamedApart

/-! ### Overlaid worlds -/

/-- **Overlaid.** On the way from `w` to `w₁` some slots have been given `out c` in the place of a
callable `c` that `u` owns and exports: all slots of `u` with such a callable have, and all those of
importers. Nothing else that a repair depends on has changed, and `out c` did not exist in `w`. -/
structure Overlaid [Host σ] (w w₁ : World σ) (r : RegistryId) (u : UnitId)
    (out : CallableId → CallableId) : Prop where
  twins : w.Twins w₁
  sound : w₁.Sound
  later : w.Later w₁
  ownTypes : typesAmong (w₁.ownExports u) = typesAmong (w.ownExports u)
  own : ∀ y c, (y, .callable c) ∈ w.ownExports u → w₁.export? u y = some (.callable (out c))
  imported : ∀ h x c, w.Imports r u h x c → w₁.export? h x = some (.callable (out c))
  written : ∀ h x, w₁.export? h x ≠ w.export? h x → ∃ c y,
    (y, .callable c) ∈ w.ownExports u ∧ w.export? h x = some (.callable c) ∧
      w₁.export? h x = some (.callable (out c)) ∧ (h ≠ u → w.Imports r u h x c)
  name : ∀ y c, (y, .callable c) ∈ w.ownExports u → w₁.callableName (out c) = w.callableName c
  fresh : ∀ y c, (y, .callable c) ∈ w.ownExports u → w.hasDefinition (.callable (out c)) = false

namespace Overlaid

variable [Host σ] {w w₁ : World σ} {r : RegistryId} {u : UnitId} {out : CallableId → CallableId}

theorem unitsOf (h : w.Overlaid w₁ r u out) (r' : RegistryId) : w₁.unitsOf r' = w.unitsOf r' := by
  rw [World.unitsOf, registry, h.twins.registries, World.unitsOf, registry]

theorem unit? (h : w.Overlaid w₁ r u out) (r' : RegistryId) (name : String) :
    w₁.unit? r' name = w.unit? r' name := by
  rw [World.unit?, registry, h.twins.registries, World.unit?, registry]

/-- The other slots hold what they held. -/
theorem export?_of_notOwn (h : w.Overlaid w₁ r u out) {u' : UnitId} {x : String} {d : Definition}
    (hx : w.export? u' x = some (.definition d))
    (hd : ∀ c, d = .callable c → (w.callable c).owner ≠ (w.unit u).name) :
    w₁.export? u' x = some (.definition d) := by
  by_contra hne
  obtain ⟨c, y, hc, hheld, -⟩ := h.written u' x (hx ▸ hne)
  obtain rfl := Value.definition.inj (Option.some.inj (hx.symm.trans hheld))
  exact hd c rfl (mem_ownExports_callable.mp hc).2

/-- A slot with a definition that existed has not been written. -/
theorem export?_of_known (h : w.Overlaid w₁ r u out) {u' : UnitId} {x : String} {d : Definition}
    (hx : w₁.export? u' x = some (.definition d)) (hd : w.hasDefinition d = true) :
    w.export? u' x = some (.definition d) := by
  by_contra hne
  obtain ⟨c, y, hc, -, hheld, -⟩ := h.written u' x (hx ▸ Ne.symm hne)
  obtain rfl := Value.definition.inj (Option.some.inj (hx.symm.trans hheld))
  rw [h.fresh y c hc] at hd
  cases hd

section Stale

variable (h : w.Overlaid w₁ r u out) (hw : w.Sound) {u' : UnitId} {x : String} {d : Definition}

include h hw

/-- A loaded unit is open, and a stranger to a name, as it was. -/
theorem holder_iff (hloaded : u' ∈ w.unitsOf r) {d₁ : Definition}
    (hname : w₁.nameOf d₁ = w.nameOf d) :
    w₁.isOpen u' = w.isOpen u' ∧
      w₁.owns (w₁.unit u').name d₁ = w.owns (w.unit u').name d := by
  obtain ⟨name, hunit⟩ := mem_unitsOf.mp hloaded
  have hlt := (hw.registered r name u' hunit).1
  exact ⟨h.later.isOpen hlt, by rw [owns, ownerOf, hname, h.later.unitName u' hlt, owns, ownerOf]⟩

/-- **Stale slots stay stale**, with a definition of the same name. -/
theorem holdsStale (hstale : w.HoldsStale r [u] u' x d) :
    ∃ d₁, w₁.HoldsStale r [u] u' x d₁ ∧ w₁.nameOf d₁ = w.nameOf d ∧
      (Value.definition d₁).nodes = (Value.definition d).nodes := by
  obtain ⟨t, ht, y, hy⟩ := hstale.exported
  obtain rfl := List.mem_singleton.mp ht
  by_cases hown : ∃ c, d = .callable c ∧ (w.callable c).owner = (w.unit t).name
  · obtain ⟨c, rfl, howner⟩ := hown
    -- a callable of the target: where it was imported there is its wrapper now
    have hc : (y, .callable c) ∈ w.ownExports t := mem_ownExports_callable.mpr ⟨hy, howner⟩
    have hother : u' ≠ t := by
      rintro rfl
      exact (w.owns_eq_false_iff _ _).mp hstale.foreign howner
    have hheld := h.imported u' x c
      ⟨hstale.loaded, hstale.isOpen, hother, hstale.held, howner, y, hy⟩
    have hname : w₁.nameOf (.callable (out c)) = w.nameOf (.callable c) := h.name y c hc
    obtain ⟨hopen, howns⟩ := h.holder_iff hw hstale.loaded hname
    exact ⟨.callable (out c), ⟨h.unitsOf r ▸ hstale.loaded, hopen.trans hstale.isOpen, hheld,
      howns.trans hstale.foreign, t, ht, y, h.own y c hc⟩, hname, rfl⟩
  · -- anything else is where it was
    have hkept : ∀ c, d = .callable c → (w.callable c).owner ≠ (w.unit t).name :=
      fun c hc howner => hown ⟨c, hc, howner⟩
    have hname : w₁.nameOf d = w.nameOf d := h.later.nameOf d (hw.exports t y _ hy)
    obtain ⟨hopen, howns⟩ := h.holder_iff hw hstale.loaded hname
    exact ⟨d, ⟨h.unitsOf r ▸ hstale.loaded, hopen.trans hstale.isOpen,
      h.export?_of_notOwn hstale.held hkept, howns.trans hstale.foreign, t, ht, y,
      h.export?_of_notOwn hy hkept⟩, hname, rfl⟩

/-- **Slots that are stale were so before**, with a definition of the same name. -/
theorem of_holdsStale (hstale : w₁.HoldsStale r [u] u' x d) :
    ∃ d₀, w.HoldsStale r [u] u' x d₀ ∧ w₁.nameOf d = w.nameOf d₀ ∧
      (Value.definition d).nodes = (Value.definition d₀).nodes := by
  obtain ⟨t, ht, y, hy⟩ := hstale.exported
  obtain rfl := List.mem_singleton.mp ht
  have hloaded : u' ∈ w.unitsOf r := h.unitsOf r ▸ hstale.loaded
  by_cases hsame : w₁.export? u' x = w.export? u' x
  · -- what the slot holds is no output of the wrapper, so the target exported it before
    have hheld := hsame.symm.trans hstale.held
    have hknown : w.hasDefinition d = true := hw.exports u' x _ hheld
    have hname : w₁.nameOf d = w.nameOf d := h.later.nameOf d hknown
    obtain ⟨hopen, howns⟩ := h.holder_iff hw hloaded hname
    exact ⟨d, ⟨hloaded, hopen.symm.trans hstale.isOpen, hheld, howns.symm.trans hstale.foreign, t,
      ht, y, h.export?_of_known hy hknown⟩, hname, rfl⟩
  · obtain ⟨c, z, hc, hheld, hheld', -⟩ := h.written u' x hsame
    obtain rfl := Value.definition.inj (Option.some.inj (hstale.held.symm.trans hheld'))
    have hname : w₁.nameOf (.callable (out c)) = w.nameOf (.callable c) := h.name z c hc
    obtain ⟨hopen, howns⟩ := h.holder_iff hw hloaded hname
    exact ⟨.callable c, ⟨hloaded, hopen.symm.trans hstale.isOpen, hheld,
      howns.symm.trans hstale.foreign, t, ht, z, (w.mem_ownExports.mp hc).1⟩, hname, rfl⟩

end Stale

end Overlaid

end World

namespace Reloader

variable [Host σ]

/-- Types of a unit whose definitions are named apart are settled. -/
theorem typesSettled_of_namedApart (r : Reloader) {w : World σ} {u : UnitId}
    (h : w.NamedApart u) : r.TypesSettled w [u] := by
  intro u' hu' x t hx howner
  obtain rfl := List.mem_singleton.mp hu'
  exact .inl (h.successor?_eq (Snapshot.mem_typesAmong.mpr ⟨x, w.mem_ownExports.mpr ⟨hx, howner⟩⟩))

namespace Course

variable {recompile : Recompiler σ} {r : Reloader} {names : List String} {w v : World σ}
  {c : Course σ} {wrapper : Wrapper σ} {out : UnitId → CallableId → CallableId} {u : UnitId}

section Wrapped

variable (hw : w.Sound) (hcourse : r.course? recompile names w = some c)
  (hwrapped : World.Wrapped wrapper c.opened v c.targets out)

include hcourse hwrapped

theorem rewrites_wrapped (hu : u ∈ c.targets) : w.Rewrites v u (out u) := by
  obtain ⟨heaps, guards, pins, heq⟩ := opened_eq hcourse
  have hrewrites := hwrapped.rewrites u hu
  rw [heq] at hrewrites
  exact ⟨hrewrites.names, hrewrites.own, hrewrites.other, hrewrites.name⟩

/-- What has been made of an own callable is new. -/
theorem fresh_wrapped (hfresh : wrapper.Fresh) (hu : u ∈ c.targets) {y : String} {d : CallableId}
    (hd : (y, .callable d) ∈ w.ownExports u) : w.hasDefinition (.callable (out u d)) = false := by
  obtain ⟨heaps, guards, pins, heq⟩ := opened_eq hcourse
  have hmade := hwrapped.made u hu y d
  rw [heq] at hmade
  -- the wrapper made it in a later world, in which it was new
  obtain ⟨v', hlater, hout⟩ := hmade hd
  have hnew : v'.hasDefinition (.callable (out u d)) = false := hout ▸ hfresh d _ v'
  rw [← Bool.not_eq_true]
  intro hknown
  have hknown' := hlater.hasDefinition (d := .callable (out u d)) hknown
  rw [hnew] at hknown'
  cases hknown'

/-- Before the repair a wrap has written slots of its target, and own callables into them. -/
theorem rewritten_wrapped (htargets : c.targets = [u]) {h : UnitId} {x : String}
    (hchanged : v.export? h x ≠ w.export? h x) :
    h = u ∧ ∃ d, (x, .callable d) ∈ w.ownExports u ∧ w.export? h x = some (.callable d) ∧
      v.export? h x = some (.callable (out u d)) := by
  obtain rfl : h = u := by
    -- units other than the target are not written before the repair
    by_contra hne
    obtain ⟨heaps, guards, pins, heq⟩ := opened_eq hcourse
    have hother : h ∉ c.targets := fun hmem => hne (List.mem_singleton.mp (htargets ▸ hmem))
    rw [World.export?, hwrapped.others h hother, heq] at hchanged
    exact hchanged rfl
  have hrewrites := rewrites_wrapped hcourse hwrapped (htargets ▸ List.mem_singleton_self h)
  refine ⟨rfl, ?_⟩
  -- in the target only slots with callables of its own change
  cases hx : w.export? h x with
  | none =>
    have hnone := hrewrites.nodes_export? x
    rw [hx, Option.map_none, Option.map_eq_none_iff] at hnone
    exact absurd (hnone.trans hx.symm) hchanged
  | some a =>
    by_cases hown : ∃ d, a = .callable d ∧ (w.callable d).owner = (w.unit h).name
    · obtain ⟨d, rfl, howner⟩ := hown
      exact ⟨d, World.mem_ownExports_callable.mpr ⟨hx, howner⟩, rfl,
        hrewrites.own x d hx howner⟩
    · have hsame := hrewrites.other x a hx fun d hd howner => hown ⟨d, hd, howner⟩
      exact absurd (hsame.trans hx.symm) hchanged

include hw

/-- **Slots that a wrap has written** held a callable of a target, and hold what has been made of
it. -/
theorem written_wrapped (journal : Journal) (htargets : c.targets = [u]) (hapart : w.NamedApart u)
    {h : UnitId} {x : String}
    (hchanged : ((c.journaled journal).propagate c.targets v).2.2.export? h x ≠ w.export? h x) :
    ∃ d y, (y, .callable d) ∈ w.ownExports u ∧ w.export? h x = some (.callable d) ∧
      ((c.journaled journal).propagate c.targets v).2.2.export? h x =
        some (.callable (out u d)) ∧ (h ≠ u → w.Imports r.registry u h x d) := by
  by_cases hrepaired : ((c.journaled journal).propagate c.targets v).2.2.export? h x =
      v.export? h x
  · rw [hrepaired] at hchanged ⊢
    obtain ⟨rfl, d, hd, hold, hnew⟩ := rewritten_wrapped hcourse hwrapped htargets hchanged
    exact ⟨d, x, hd, hold, hnew, fun hne => absurd rfl hne⟩
  · -- the repair has written it, so it was stale and has got the claimant of its name
    have hopened := opened_journaled hcourse journal
    have hkept := World.keepsNames_of_later hw (later_wrapped hw hcourse hwrapped) r.registry
      c.targets
    have hnames := nodup_names_wrapped hw hcourse hwrapped
    have hu : u ∈ c.targets := htargets ▸ List.mem_singleton_self u
    obtain ⟨d, d', hr⟩ := hopened.repoints_of_changed hkept hnames hrepaired
    obtain ⟨t, ht, y, hy⟩ := hr.stale.exported
    obtain ⟨t', ht', howner⟩ := hr.owner
    rw [htargets, List.mem_singleton] at ht ht'
    rw [ht] at hy
    rw [ht'] at howner
    have hunit : (v.unit u).name = (w.unit u).name :=
      name_target (later_wrapped hw hcourse hwrapped) hw hcourse hu
    rw [hunit] at howner
    have hd : (y, d) ∈ w.ownExports u := w.mem_ownExports.mpr ⟨hy, howner.symm⟩
    have hclaim : v.claimant? u (w.nameOf d) = some (d.mapCallable (out u)) := by
      rw [claimant?_wrapped hw hcourse hwrapped hu, hapart.claimant?_eq hd]
      rfl
    have hsucc := hr.succeeded
    rw [World.successorAmong?_eq_claimant? hnames hu (hunit.trans howner), hclaim,
      Option.some.injEq] at hsucc
    subst hsucc
    have hnew := hopened.export?_of_repoints hkept hnames hr
    cases d with
    | type s => exact absurd rfl hr.ne
    | callable e =>
      exact ⟨e, y, hd, hr.stale.held, hnew, fun hne =>
        ⟨hr.stale.loaded, hr.stale.isOpen, hne, hr.stale.held, howner.symm, y, hy⟩⟩

/-- A slot that has been written holds a callable in the place of another one, and callables are no
nodes. -/
theorem nodes_wrapped (journal : Journal) (htargets : c.targets = [u]) (hapart : w.NamedApart u)
    (h : UnitId) (x : String) :
    (((c.journaled journal).propagate c.targets v).2.2.export? h x).map Value.nodes =
      (w.export? h x).map Value.nodes := by
  by_cases hsame : ((c.journaled journal).propagate c.targets v).2.2.export? h x = w.export? h x
  · rw [hsame]
  · obtain ⟨d, -, -, hold, hnew, -⟩ :=
      written_wrapped hw hcourse hwrapped journal htargets hapart hsame
    rw [hold, hnew]
    rfl

/-- **A wrap leaves a twin** of the world that it is called in. -/
theorem twins_closed (journal : Journal) (htargets : c.targets = [u]) (hapart : w.NamedApart u) :
    w.Twins (r.closed w ((c.journaled journal).propagate c.targets v).2.2) := by
  have hlinked := (relinked_wrapped hw hcourse hwrapped journal).2
    (htargets ▸ typesSettled_of_namedApart r hapart)
  have hslots := nodes_wrapped hw hcourse hwrapped journal htargets hapart
  obtain ⟨heaps, guards, pins, heq⟩ := opened_eq hcourse
  have hunits : v.units.size = w.units.size := by
    rw [hwrapped.units, heq]
  have htypes : v.types.size = w.types.size := by
    rw [hwrapped.types, heq]
  refine
    { size := (congrArg Store.size hlinked.types).trans htypes
      types := fun t => ?_
      units := (World.size_units_propagate _ _ v).trans hunits
      objects := hlinked.objects.trans (hwrapped.objects.trans (by rw [heq]))
      registries := hlinked.frame.registries.trans (hwrapped.registries.trans (by rw [heq]))
      roots := fun n => ?_
      slots := fun h => World.mem_successors_unit_congr (hslots h) }
  · obtain ⟨members, hmembers⟩ := hwrapped.sameTypes t
    rw [heq] at hmembers
    refine ⟨members, ?_⟩
    show ((c.journaled journal).propagate c.targets v).2.2.types.get t.index = _
    rw [hlinked.types]
    exact hmembers
  · -- pins are what they were before the call
    have hhost : Host.roots ((c.journaled journal).propagate c.targets v).2.2.host =
        Host.roots w.host := by
      rw [hlinked.frame.host, hwrapped.roots, heq]
    rw [World.mem_roots, World.mem_roots, ← hhost]
    exact Iff.rfl

/-- **A wrap overlays** the world that it is called in, if the definitions of its target are named
apart. -/
theorem overlaid_wrapped (hfresh : wrapper.Fresh) (hfinds : r.enumerator.Finds w)
    (journal : Journal) (htargets : c.targets = [u]) (hapart : w.NamedApart u) :
    w.Overlaid (r.closed w ((c.journaled journal).propagate c.targets v).2.2) r.registry u
      (out u) := by
  have hu : u ∈ c.targets := htargets ▸ List.mem_singleton_self u
  have hrewrites := rewrites_wrapped hcourse hwrapped hu
  have hlater := later_wrapped hw hcourse hwrapped
  have hfits := fits_wrapped hw hcourse hwrapped journal
  have hknown : (c.journaled journal).Known v := by
    obtain ⟨_, hstart, -⟩ := session_started hcourse
    exact (Session.known_of_start hstart (sound_entered hw r) hfinds
      ((later_entered w r).trans hlater)).of_journal journal
  have hwanes := Session.wanes_propagate (hwrapped.sound (opened_sound hw hcourse).1) hknown hfits
    c.targets
  have hclosed : ((c.journaled journal).propagate c.targets v).2.2.Later
      (r.closed w ((c.journaled journal).propagate c.targets v).2.2) :=
    World.later_of_stores rfl rfl rfl (Nat.le_refl _)
  exact
    { twins := twins_closed hw hcourse hwrapped journal htargets hapart
      sound := hwanes.fades.sound.of_stores rfl rfl rfl (Nat.le_refl _) (Nat.le_refl _)
      later := hlater.trans (hwanes.fades.later.trans hclosed)
      ownTypes := by
        have hown := Session.ownExports_propagate hfits c.targets u
        rw [← hrewrites.typesAmong_eq hw hlater (target_registered hw hcourse hu).1, ← hown]
        rfl
      own := fun y d hd => by
        obtain ⟨hy, howner⟩ := World.mem_ownExports_callable.mp hd
        exact export?_of_wrapped hw hcourse hwrapped journal hu hy howner
      imported := fun h x d himports => by
        obtain ⟨y, hy⟩ := himports.exported
        -- names are apart, so the claimant of the name is the callable itself
        obtain ⟨d', hclaim, hnew⟩ := export?_of_imports hw hcourse hwrapped journal hu himports
        have hd := World.mem_ownExports_callable.mpr ⟨hy, himports.owned⟩
        obtain rfl := Option.some.inj (hclaim.symm.trans (hapart.claimant?_eq hd))
        exact hnew
      written := fun h x => written_wrapped hw hcourse hwrapped journal htargets hapart
      name := fun y d hd => by
        obtain ⟨hy, howner⟩ := World.mem_ownExports_callable.mp hd
        obtain ⟨hknown, hname⟩ := hrewrites.name y d hy howner
        exact ((hwanes.fades.later.trans hclosed).nameOf _ hknown).trans hname
      fresh := fun y d hd => fresh_wrapped hcourse hwrapped hfresh hu hd }

end Wrapped

end Course

/-- **A wrap of one unit** whose definitions are named apart returns, and it overlays the world. The
guard is free again, and the enumerator finds the objects that it would have found before. -/
theorem exists_overlaid {r : Reloader} {name : String} {w : World σ} {u : UnitId}
    {wrapper : Wrapper σ} (options : WrapOptions) (hw : w.Sound) (hwrapper : wrapper.Discreet)
    (hfresh : wrapper.Fresh) (hidle : w.isHeld r.guard = false) (hconfig : r.config.fault? = none)
    (hfinds : r.enumerator.Finds w) (hname : w.unit? r.registry name = some u)
    (hopen : w.isOpen u = true) (hapart : w.NamedApart u) :
    ∃ report w₁ out, r.wrap wrapper options [name] w = (.ok report, w₁) ∧
      w.Overlaid w₁ r.registry u out ∧ w₁.isHeld r.guard = false ∧
        r.enumerated w₁ = r.enumerated w := by
  have htargets := targets_singleton hname
  have hreturns : ∃ report w₁, r.wrap wrapper options [name] w = (.ok report, w₁) := by
    obtain ⟨c, hcourse, -⟩ := exists_course_of_open .unchanged hidle hconfig htargets
      fun _ hu => List.mem_singleton.mp hu ▸ hopen
    rw [wrap, inSession_eq, Course.opening_of_course hcourse]
    exact ⟨_, _, rfl⟩
  obtain ⟨report, w₁, hwrap⟩ := hreturns
  -- what is known of the end of the wrap is known of this course
  obtain ⟨c, v, journal, out, hcourse, hwrapped, -, rfl⟩ := Course.exists_of_wrap hw hwrapper hwrap
  have hsingle : c.targets = [u] :=
    Except.ok.inj ((Course.targets_eq hcourse).symm.trans htargets)
  have hoverlaid :=
    Course.overlaid_wrapped hw hcourse hwrapped hfresh hfinds journal hsingle hapart
  have hlinked := (Course.relinked_wrapped hw hcourse hwrapped journal).2
    (hsingle ▸ typesSettled_of_namedApart r hapart)
  refine ⟨report, _, out u, hwrap, hoverlaid, ?_, ?_⟩
  · rw [closed, World.isHeld_putGuard, if_pos rfl]
  · exact Course.enumerated_eq hw hcourse (hlinked.frame.heaps.trans hwrapped.heaps)
      hoverlaid.twins.registries fun n => (hoverlaid.twins.pin fun _ => Iff.rfl).reaches_iff n

end Reloader

end HotReload
