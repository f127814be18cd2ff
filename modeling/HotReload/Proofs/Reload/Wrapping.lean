import HotReload.Proofs.Reload.Calls
import HotReload.Proofs.Repair.Twins
import HotReload.Proofs.World.Merging
import Mathlib.Data.List.Find

/-!
# What a wrap does before it repairs

A wrapper that is *discreet* makes new callables, of the same names, and leaves everything else in
the world alone but host state (`Wrapper.Discreet`). Then all that wrapping does to the world is to
replace, in the tables of the targets, each own callable by what the wrapper made of it
(`World.Wrapped`), and callables of members in their types. The order of exports stays, and so do
names, so what a unit owns and claims afterwards is what it owned and claimed, callable by callable
(`World.Rewrites.claimant?_eq`). Types are changed in place, and the same nodes are alive as before
(`World.Wrapped.reaches_iff`).
-/

namespace HotReload

variable {σ : Type}

/-! ### Discreet wrappers -/

variable [Host σ]

/-- **Discreet.** The wrapper makes callables, and touches host state at most besides, and no root
of it. Its output has the name of what it was given. -/
structure Wrapper.Discreet (wrapper : Wrapper σ) : Prop where
  world : ∀ c name (w : World σ), ∃ callables host,
    (wrapper c name w).2 = { w with callables := callables, host := host } ∧
      Host.roots host = Host.roots w.host
  later : ∀ c name (w : World σ), w.Later (wrapper c name w).2
  output : ∀ c name (w : World σ), w.hasDefinition (.callable c) = true →
    (wrapper c name w).2.hasDefinition (.callable (wrapper c name w).1) = true ∧
      (wrapper c name w).2.callableName (wrapper c name w).1 = w.callableName c

/-- A wrapper is discreet if it makes one callable, with the owner and the name of the one that it
is given. -/
theorem Wrapper.discreet_of_newCallable {cell : CallableId → World σ → Callable}
    (howner : ∀ c w, (cell c w).owner = (w.callable c).owner)
    (hname : ∀ c w, (cell c w).name = (w.callable c).name) :
    Wrapper.Discreet (fun c _ w => w.newCallable (cell c w) : Wrapper σ) where
  world _ _ w := ⟨_, w.host, rfl, rfl⟩
  later c _ w := w.later_newCallable (cell c w)
  output c _ w _ := by
    have hsize : (w.newCallable (cell c w)).2.callables.size = w.callables.size + 1 :=
      w.callables.size_alloc _
    refine ⟨decide_eq_true (hsize.symm ▸ Nat.lt_succ_self _), ?_⟩
    -- the new callable is read with the owner and the name of the original
    have hcell : (w.newCallable (cell c w)).2.callable ⟨w.callables.size⟩ = cell c w := by
      rw [World.callable, World.newCallable, Store.get_alloc, Store.alloc_fst, if_pos rfl]
    show (w.newCallable (cell c w)).2.callableName ⟨w.callables.size⟩ = w.callableName c
    rw [World.callableName, World.callableName, hcell, howner, hname]

namespace World

/-- **Instrumented.** Of types only members have changed, of the host no root, and objects, heaps,
registries and pins are the same. -/
structure Instrumented (w w' : World σ) : Prop where
  later : w.Later w'
  units : w'.units.size = w.units.size
  types : w'.types.size = w.types.size
  sameTypes : w.SameTypes w'
  objects : w'.objects = w.objects
  heaps : w'.heaps = w.heaps
  registries : w'.registries = w.registries
  pins : w'.pins = w.pins
  roots : Host.roots w'.host = Host.roots w.host

namespace Instrumented

variable {w w' w'' : World σ}

theorem refl (w : World σ) : w.Instrumented w :=
  ⟨.refl w, rfl, rfl, .refl w, rfl, rfl, rfl, rfl, rfl⟩

theorem trans (h : w.Instrumented w') (h' : w'.Instrumented w'') : w.Instrumented w'' where
  later := h.later.trans h'.later
  units := h'.units.trans h.units
  types := h'.types.trans h.types
  sameTypes := h.sameTypes.trans h'.sameTypes
  objects := h'.objects.trans h.objects
  heaps := h'.heaps.trans h.heaps
  registries := h'.registries.trans h.registries
  pins := h'.pins.trans h.pins
  roots := h'.roots.trans h.roots

/-- What there is to be alive stays the same. -/
theorem knows (h : w.Instrumented w') : w'.knows = w.knows := by
  funext n
  cases n <;> simp only [World.knows, h.units, h.types, h.objects, h.registries]

end Instrumented

/-- Instrumented, and no table has been written so far. -/
structure InstrumentedInPlace (w w' : World σ) : Prop extends w.Instrumented w' where
  exports : w'.exports = w.exports

namespace InstrumentedInPlace

variable {w w' w'' : World σ}

theorem refl (w : World σ) : w.InstrumentedInPlace w := ⟨.refl w, rfl⟩

theorem trans (h : w.InstrumentedInPlace w') (h' : w'.InstrumentedInPlace w'') :
    w.InstrumentedInPlace w'' :=
  ⟨h.toInstrumented.trans h'.toInstrumented, h'.exports.trans h.exports⟩

/-- Pins that are set for a while do not show in the end. -/
theorem of_pins {pins : NumberedSet Node}
    (h : ({ w with pins := pins } : World σ).InstrumentedInPlace w') :
    w.InstrumentedInPlace { w' with pins := w.pins } where
  later := by
    have hpin : w.Later { w with pins := pins } := later_of_stores rfl rfl rfl (Nat.le_refl _)
    exact (hpin.trans h.later).trans (later_of_stores rfl rfl rfl (Nat.le_refl _))
  units := h.units
  types := h.types
  sameTypes := h.sameTypes
  objects := h.objects
  heaps := h.heaps
  registries := h.registries
  pins := rfl
  roots := h.roots
  exports := h.exports

end InstrumentedInPlace

/-! ### One definition after the other -/

section Wrapping

variable {wrapper : Wrapper σ} {options : WrapOptions}

/-- The job of a wrap that takes its notes in the end. -/
def jobOf (wrapper : Wrapper σ) (options : WrapOptions) : WrapJob σ :=
  ⟨wrapper, options, fun _ w => w⟩

/-- A discreet wrapper adds callables and changes the host. -/
theorem inPlace_wrapper (hwrapper : wrapper.Discreet) (c : CallableId) (name : String)
    (w : World σ) : w.InstrumentedInPlace (wrapper c name w).2 := by
  have hlater := hwrapper.later c name w
  obtain ⟨callables, host, heq, hroots⟩ := hwrapper.world c name w
  rw [heq] at hlater ⊢
  exact ⟨⟨hlater, rfl, rfl, fun _ => ⟨_, rfl⟩, rfl, rfl, rfl, rfl, hroots⟩, rfl⟩

/-- A member of a type is written in place. -/
theorem inPlace_setMember {w : World σ} {t : TypeId} (ht : t.index < w.types.size)
    (name : String) (m : Member) : w.InstrumentedInPlace (w.setMember t name m) where
  later := (w.sameForm_putType t { w.type t with members := (w.type t).members.insert name m } rfl
    rfl rfl).later (Nat.le_refl _) (Nat.le_refl _) (w.types.size_le_size_set _ _) (Nat.le_refl _)
  units := rfl
  types := w.types.size_set_of_lt ht _
  sameTypes s := by
    rw [setMember, type_putType]
    split
    · next hs =>
      rw [hs]
      exact ⟨_, rfl⟩
    · exact ⟨_, rfl⟩
  objects := rfl
  heaps := rfl
  registries := rfl
  pins := rfl
  roots := rfl
  exports := rfl

variable (options) in
/-- Members are wrapped one after the other, each in place. -/
theorem inPlace_wrapMembers (hwrapper : wrapper.Discreet) {t : TypeId}
    (members : List (String × Member)) (p : WrapProgress) {w : World σ}
    (ht : t.index < w.types.size) :
    w.InstrumentedInPlace (members.foldl
      (fun (p, w) e => wrapMember (jobOf wrapper options) t e.1 e.2 p w) (p, w)).2 := by
  induction members generalizing p w with
  | nil => exact .refl w
  | cons e members ih =>
    rw [List.foldl_cons]
    -- first the wrapper is asked, then its answer is put in the place of the member
    have hwrapped := inPlace_wrapper hwrapper e.2.callable (w.memberName t e.1).text w
    have hset := inPlace_setMember (hwrapped.types.symm ▸ ht) e.1
      { e.2 with callable := (wrapper e.2.callable (w.memberName t e.1).text w).1 }
    have hstep := hwrapped.trans hset
    exact hstep.trans (ih _ (hstep.types.symm ▸ ht))

variable (wrapper options) in
omit [Host σ] in
/-- Wrapping a member enters no callable. -/
theorem progress_wrapMembers (t : TypeId) (members : List (String × Member)) (p : WrapProgress)
    (w : World σ) :
    (members.foldl (fun (p, w) e => wrapMember (jobOf wrapper options) t e.1 e.2 p w)
        (p, w)).1.replaced = p.replaced ∧
      (members.foldl (fun (p, w) e => wrapMember (jobOf wrapper options) t e.1 e.2 p w)
        (p, w)).1.updates = p.updates := by
  induction members generalizing p w with
  | nil => exact ⟨rfl, rfl⟩
  | cons e members ih =>
    rw [List.foldl_cons]
    exact ih _ _

/-- **What a wrap has done** to the callables among the definitions `done` on the way from `w` to
`w'`: each of them has been given to the wrapper, and its output has been entered under all of its
names. -/
structure Follows (wrapper : Wrapper σ) (w w' : World σ) (done : List (String × Definition))
    (p : WrapProgress) : Prop where
  updates_iff : ∀ x v, p.updates.get? x = some v ↔
    ∃ c c', (x, .callable c) ∈ done ∧ p.replaced.lookup c = some c' ∧ v = .callable c'
  replaced : ∀ x c, (x, .callable c) ∈ done → ∃ c', p.replaced.lookup c = some c'
  output : ∀ c c', p.replaced.lookup c = some c' →
    (∃ v, w.Later v ∧ (wrapper c (w.callableName c).text v).1 = c') ∧
      w'.hasDefinition (.callable c') = true ∧ w'.callableName c' = w.callableName c

namespace Follows

variable {w v v' : World σ} {done : List (String × Definition)} {p : WrapProgress}

omit [Host σ] in
/-- What has been done so far holds in later worlds too. -/
theorem later (h : Follows wrapper w v done p) (hlater : v.Later v') :
    Follows wrapper w v' done p :=
  { h with
    output := fun c c' hc => by
      obtain ⟨hout, hknown, hname⟩ := h.output c c' hc
      exact ⟨hout, hlater.hasDefinition hknown, (hlater.nameOf _ hknown).trans hname⟩ }

omit [Host σ] in
/-- A type is gone through without a change to the table. -/
theorem append_type (h : Follows wrapper w v done p) {p' : WrapProgress} {x : String} {t : TypeId}
    (hreplaced : p'.replaced = p.replaced) (hupdates : p'.updates = p.updates) :
    Follows wrapper w v (done ++ [(x, .type t)]) p' := by
  have hmem : ∀ y c, (y, .callable c) ∈ done ++ [(x, .type t)] ↔ (y, .callable c) ∈ done := by
    intro y c
    rw [List.mem_append, List.mem_singleton]
    exact or_iff_left fun hc => nomatch (Prod.mk.inj hc).2
  refine ⟨fun y a => ?_, fun y c hc => ?_, fun c c' hc => ?_⟩
  · simp only [hupdates, hreplaced, hmem, h.updates_iff]
  · rw [hreplaced]
    exact h.replaced y c ((hmem y c).mp hc)
  · rw [hreplaced] at hc
    exact h.output c c' hc

omit [Host σ] in
/-- What has been entered for the definitions so far stays entered. -/
theorem lookup_eq (h : Follows wrapper w v done p) {c c' : CallableId} {p' : WrapProgress}
    (hnew : p'.replaced.lookup c = some c')
    (hold : ∀ d, d ≠ c → p'.replaced.lookup d = p.replaced.lookup d)
    (hkept : ∀ d', p.replaced.lookup c = some d' → d' = c') {y : String} {d : CallableId}
    (hd : (y, .callable d) ∈ done) : p'.replaced.lookup d = p.replaced.lookup d := by
  by_cases hdc : d = c
  · subst hdc
    -- entered under another name before, so the output is the same
    obtain ⟨e, he⟩ := h.replaced y d hd
    rw [hnew, he, hkept e he]
  · exact hold d hdc

omit [Host σ] in
/-- A callable is entered under a name that is new. -/
theorem append_callable (h : Follows wrapper w v done p) {x : String} {c : CallableId}
    (hx : x ∉ done.map (·.1)) (c' : CallableId) {p' : WrapProgress}
    (hnew : p'.replaced.lookup c = some c')
    (hold : ∀ d, d ≠ c → p'.replaced.lookup d = p.replaced.lookup d)
    (hkept : ∀ d', p.replaced.lookup c = some d' → d' = c')
    (hupdates : p'.updates = p.updates.insert x (.callable c'))
    (hout : (∃ u, w.Later u ∧ (wrapper c (w.callableName c).text u).1 = c') ∧
      v.hasDefinition (.callable c') = true ∧ v.callableName c' = w.callableName c) :
    Follows wrapper w v (done ++ [(x, .callable c)]) p' := by
  have hlookup : ∀ {y d}, (y, .callable d) ∈ done →
      p'.replaced.lookup d = p.replaced.lookup d := h.lookup_eq hnew hold hkept
  -- what is entered is told slot by slot: this one, and the ones before
  refine ⟨fun y a => ?_, fun y d hd => ?_, fun d d' hd => ?_⟩
  · rw [hupdates, Table.get?_insert]
    split
    · next hy =>
      subst hy
      constructor
      · intro ha
        exact ⟨c, c', List.mem_append_right _ (List.mem_singleton_self _), hnew,
          (Option.some.inj ha).symm⟩
      · rintro ⟨d, d', hd, hd', rfl⟩
        rcases List.mem_append.mp hd with hd | hd
        · exact absurd (List.mem_map_of_mem hd) hx
        · obtain rfl := Definition.callable.inj (Prod.mk.inj (List.mem_singleton.mp hd)).2
          rw [Option.some.inj (hnew.symm.trans hd')]
    · next hy =>
      -- the other slots have not changed
      rw [h.updates_iff]
      refine exists_congr fun d => exists_congr fun d' => ?_
      have hmem : (y, .callable d) ∈ done ++ [(x, .callable c)] ↔ (y, .callable d) ∈ done := by
        rw [List.mem_append, List.mem_singleton]
        exact or_iff_left fun hc => hy (Prod.mk.inj hc).1
      rw [hmem]
      exact and_congr_right fun hd => by rw [hlookup hd]
  · rcases List.mem_append.mp hd with hd | hd
    · obtain ⟨d', hd'⟩ := h.replaced y d hd
      exact ⟨d', (hlookup hd).trans hd'⟩
    · obtain rfl := Definition.callable.inj (Prod.mk.inj (List.mem_singleton.mp hd)).2
      exact ⟨c', hnew⟩
  · by_cases hdc : d = c
    · subst hdc
      rw [← Option.some.inj (hnew.symm.trans hd)]
      exact hout
    · rw [hold d hdc] at hd
      exact h.output d d' hd

end Follows

variable (options) in
/-- **One definition** is wrapped. -/
theorem follows_wrapDefinition (hwrapper : wrapper.Discreet) {w v : World σ}
    {done : List (String × Definition)} {p : WrapProgress} (h : Follows wrapper w v done p)
    (hv : w.Later v) {e : String × Definition} (he : w.hasDefinition e.2 = true)
    (hx : e.1 ∉ done.map (·.1)) :
    v.InstrumentedInPlace (wrapDefinition (jobOf wrapper options) p v e).2 ∧
      Follows wrapper w (wrapDefinition (jobOf wrapper options) p v e).2 (done ++ [e])
        (wrapDefinition (jobOf wrapper options) p v e).1 := by
  obtain ⟨x, c | t⟩ := e
  · show v.InstrumentedInPlace (wrapCallable _ x c p v).2 ∧
      Follows wrapper w (wrapCallable _ x c p v).2 _ (wrapCallable _ x c p v).1
    unfold wrapCallable
    cases hc : p.replaced.lookup c with
    -- this callable has been wrapped under another name already, and its wrapper is taken again
    | some c' =>
      exact ⟨.refl v, h.append_callable hx c' hc (fun _ _ => rfl)
        (fun d' hd' => Option.some.inj (hd'.symm.trans hc)) rfl (h.output c c' hc)⟩
    | none =>
      have hname : v.callableName c = w.callableName c := hv.nameOf (.callable c) he
      have hstep := inPlace_wrapper hwrapper c (w.callableName c).text v
      obtain ⟨hknown, houtput⟩ :=
        hwrapper.output c (w.callableName c).text v (hv.hasDefinition he)
      have hout : (∃ u, w.Later u ∧ (wrapper c (w.callableName c).text u).1 =
          (wrapper c (w.callableName c).text v).1) ∧ _ ∧ _ :=
        ⟨⟨v, hv, rfl⟩, hknown, houtput.trans hname⟩
      simp only [hname]
      refine ⟨hstep, (h.later hstep.later).append_callable hx _ ?_ (fun d hd => ?_)
        (fun d' hd' => ?_) rfl hout⟩
      · rw [List.lookup_append, hc, Option.none_or]
        exact List.lookup_cons_self
      · rw [List.lookup_append]
        have hne : (d == c) = false := beq_false_of_ne hd
        simp [List.lookup_cons, hne]
      · rw [hc] at hd'
        cases hd'
  · -- a type is wrapped in place, once
    show v.InstrumentedInPlace (wrapType _ t p v).2 ∧ Follows wrapper w (wrapType _ t p v).2 _
      (wrapType _ t p v).1
    unfold wrapType
    split
    · exact ⟨.refl v, h.append_type rfl rfl⟩
    · have ht : t.index < v.types.size := of_decide_eq_true (hv.hasDefinition he)
      have hstep := inPlace_wrapMembers options hwrapper
        (((v.type t).members.entries.filter ((jobOf wrapper options).options.includes ·.1)))
        { p with types := p.types ++ [t] } ht
      obtain ⟨hreplaced, hupdates⟩ := progress_wrapMembers wrapper options
        t ((v.type t).members.entries.filter ((jobOf wrapper options).options.includes ·.1))
        { p with types := p.types ++ [t] } v
      exact ⟨hstep, (h.later hstep.later).append_type hreplaced hupdates⟩

variable (options) in
/-- **All definitions** of a unit are wrapped, one after the other. -/
theorem follows_wrapEach (hwrapper : wrapper.Discreet) {w v : World σ}
    {done defs : List (String × Definition)} {p : WrapProgress} (h : Follows wrapper w v done p)
    (hv : w.Later v) (hdefs : ∀ e ∈ defs, w.hasDefinition e.2 = true)
    (hnames : ((done ++ defs).map (·.1)).Nodup) :
    v.InstrumentedInPlace (wrapEach (jobOf wrapper options) defs p v).2 ∧
      Follows wrapper w (wrapEach (jobOf wrapper options) defs p v).2 (done ++ defs)
        (wrapEach (jobOf wrapper options) defs p v).1 := by
  induction defs generalizing done p v with
  | nil => exact ⟨.refl v, (List.append_nil done).symm ▸ h⟩
  | cons e defs ih =>
    rw [List.forall_mem_cons] at hdefs
    have hx : e.1 ∉ done.map (·.1) := by
      rw [List.map_append, List.map_cons, List.nodup_append] at hnames
      exact fun hc => hnames.2.2 e.1 hc e.1 List.mem_cons_self rfl
    -- the definition is wrapped while it and the others are pinned
    have hpin : v.Later (v.pin (keptIn (e :: defs))) := later_of_stores rfl rfl rfl (Nat.le_refl _)
    obtain ⟨hstep, hfollows⟩ := follows_wrapDefinition options hwrapper (h.later hpin)
      (hv.trans hpin) hdefs.1 hx
    have hinstrumented := hstep.of_pins
    -- afterwards the pins are as they were, which changes nothing of what is known
    have hlet : (wrapDefinition (jobOf wrapper options) p (v.pin (keptIn (e :: defs))) e).2.Later
        { (wrapDefinition (jobOf wrapper options) p (v.pin (keptIn (e :: defs))) e).2 with
          pins := v.pins } :=
      later_of_stores rfl rfl rfl (Nat.le_refl _)
    have hassoc : done ++ e :: defs = (done ++ [e]) ++ defs := by simp
    obtain ⟨hrest, hall⟩ := ih (hfollows.later hlet) (hv.trans hinstrumented.later) hdefs.2
      (hassoc ▸ hnames)
    rw [wrapEach_cons, hassoc]
    exact ⟨hinstrumented.trans hrest, hall⟩

end Wrapping

/-! ### Unit after unit -/

end World

/-- The definition with its callable replaced, if it is one. -/
def Definition.mapCallable (f : CallableId → CallableId) : Definition → Definition
  | .callable c => .callable (f c)
  | .type t => .type t

namespace World

/-- **Rewritten.** In `w'` the unit `u` exports `out c` where it exported a callable `c` of its own
in `w`, and everything else as it did. -/
structure Rewrites (w w' : World σ) (u : UnitId) (out : CallableId → CallableId) : Prop where
  names : (w'.exports u).names = (w.exports u).names
  own : ∀ x c, w.export? u x = some (.callable c) → (w.callable c).owner = (w.unit u).name →
    w'.export? u x = some (.callable (out c))
  other : ∀ x v, w.export? u x = some v →
    (∀ c, v = .callable c → (w.callable c).owner ≠ (w.unit u).name) → w'.export? u x = some v
  name : ∀ x c, w.export? u x = some (.callable c) → (w.callable c).owner = (w.unit u).name →
    w'.hasDefinition (.callable (out c)) = true ∧ w'.callableName (out c) = w.callableName c

omit [Host σ] in
/-- An own callable is one whose owner is the unit. -/
theorem mem_ownExports_callable {w : World σ} {u : UnitId} {x : String} {c : CallableId} :
    (x, .callable c) ∈ w.ownExports u ↔
      w.export? u x = some (.callable c) ∧ (w.callable c).owner = (w.unit u).name :=
  w.mem_ownExports

omit [Host σ] in
/-- An own definition is exported under its name once. -/
theorem nodup_names_ownExports (w : World σ) (u : UnitId) :
    ((w.ownExports u).map (·.1)).Nodup :=
  (w.exports u).nodup.sublist
    ((List.filter_sublist.map _).trans (w.exports u).sublist_names_definitions)

section Rewriting

variable {wrapper : Wrapper σ} {options : WrapOptions}

omit [Host σ] in
/-- What has been done for the own definitions of a unit is merged over its exports. -/
theorem rewrites_mergeExports {w v : World σ} {u : UnitId} {p : WrapProgress}
    (h : Follows wrapper w v (w.ownExports u) p) (hexports : v.exports u = w.exports u) :
    w.Rewrites (v.mergeExports u p.updates) u fun c => (p.replaced.lookup c).getD c := by
  have hread : ∀ x, (v.mergeExports u p.updates).export? u x =
      (p.updates.get? x).or (w.export? u x) := by
    intro x
    rw [mergeExports, export?, exports_replaceExports_self, Table.get?_merge, hexports, export?]
  have hlater : v.Later (v.mergeExports u p.updates) := later_replaceExports _ _ _
  refine ⟨?_, fun x c hx howner => ?_, fun x a hx hforeign => ?_, fun x c hx howner => ?_⟩
  · rw [mergeExports, exports_replaceExports_self, hexports]
    -- only names of own callables are written
    refine Table.names_merge fun x hx => ?_
    obtain ⟨⟨x, a⟩, hentry, rfl⟩ := List.mem_map.mp hx
    obtain ⟨c, c', hc, -⟩ := (h.updates_iff x a).mp ((Table.get?_eq_some_iff _ _ _).mpr hentry)
    exact Table.mem_names_of_get? (w.mem_ownExports.mp hc).1
  · have hmem := mem_ownExports_callable.mpr ⟨hx, howner⟩
    obtain ⟨c', hc'⟩ := h.replaced x c hmem
    rw [hread, (h.updates_iff x (.callable c')).mpr ⟨c, c', hmem, hc', rfl⟩, hc']
    rfl
  · rw [hread, hx]
    cases hupdate : p.updates.get? x with
    | none => rfl
    | some b =>
      -- a name that is written holds an own callable
      obtain ⟨c, c', hmem, -⟩ := (h.updates_iff x b).mp hupdate
      obtain ⟨hc, howner⟩ := mem_ownExports_callable.mp hmem
      rw [hx, Option.some.injEq] at hc
      exact absurd howner (hforeign c hc)
  · obtain ⟨c', hc'⟩ := h.replaced x c (mem_ownExports_callable.mpr ⟨hx, howner⟩)
    obtain ⟨-, hknown, hname⟩ := h.output c c' hc'
    rw [hc']
    exact ⟨hlater.hasDefinition hknown, (hlater.nameOf _ hknown).trans hname⟩

omit [Host σ] in
/-- A table that is not written stays rewritten. -/
theorem Rewrites.later {w v v' : World σ} {u : UnitId} {out : CallableId → CallableId}
    (h : w.Rewrites v u out) (hlater : v.Later v') (hexports : v'.exports u = v.exports u) :
    w.Rewrites v' u out := by
  have hread : ∀ x, v'.export? u x = v.export? u x := by
    intro x
    rw [export?, hexports, export?]
  refine ⟨hexports ▸ h.names, fun x c hx howner => (hread x).trans (h.own x c hx howner),
    fun x a hx hforeign => (hread x).trans (h.other x a hx hforeign), fun x c hx howner => ?_⟩
  obtain ⟨hknown, hname⟩ := h.name x c hx howner
  exact ⟨hlater.hasDefinition hknown, (hlater.nameOf _ hknown).trans hname⟩

/-- A merge changes the exports of one unit. -/
theorem instrumented_mergeExports {w : World σ} {u : UnitId} (hu : u.index < w.units.size)
    (table : Table Value) : w.Instrumented (w.mergeExports u table) where
  later := later_replaceExports _ _ _
  units := w.units.size_set_of_lt hu _
  types := rfl
  sameTypes := .refl w
  objects := rfl
  heaps := rfl
  registries := rfl
  pins := rfl
  roots := rfl

/-- **Wrapped.** The tables of the units have been rewritten with outputs of the wrapper, and no
other table has been written. -/
structure Wrapped (wrapper : Wrapper σ) (w w' : World σ) (us : List UnitId)
    (out : UnitId → CallableId → CallableId) : Prop extends w.Instrumented w' where
  rewrites : ∀ u ∈ us, w.Rewrites w' u (out u)
  others : ∀ u, u ∉ us → w'.exports u = w.exports u
  made : ∀ u ∈ us, ∀ x c, (x, .callable c) ∈ w.ownExports u →
    ∃ v, w.Later v ∧ (wrapper c (w.callableName c).text v).1 = out u c

variable (options) in
/-- **One unit** is wrapped. -/
theorem wrapped_wrapDefinitions (hwrapper : wrapper.Discreet) {w v : World σ} (hw : w.Sound)
    {us : List UnitId} {out : UnitId → CallableId → CallableId} (h : Wrapped wrapper w v us out)
    {u : UnitId} (hu : u ∉ us) (hknown : u.index < w.units.size) :
    ∃ out', Wrapped wrapper w
      (v.wrapDefinitions (jobOf wrapper options) u (w.ownExports u)).1 (us ++ [u]) out' := by
  have hdefs : ∀ e ∈ w.ownExports u, w.hasDefinition e.2 = true :=
    fun e he => hw.exports u e.1 (.definition e.2) (w.mem_ownExports.mp he).1
  have hnames : ((w.ownExports u).map (·.1)).Nodup := nodup_names_ownExports w u
  have hstart : Follows wrapper w v [] default :=
    ⟨fun x a => iff_of_false nofun nofun, nofun, nofun⟩
  obtain ⟨hstep, hfollows⟩ := follows_wrapEach options hwrapper hstart h.later hdefs
    hnames
  rw [List.nil_append] at hfollows
  -- from here on it is a table that is merged over the exports in the end
  show ∃ out', Wrapped wrapper w
    ((wrapEach (jobOf wrapper options) (w.ownExports u) default v).2.mergeExports u
      (wrapEach (jobOf wrapper options) (w.ownExports u) default v).1.updates) (us ++ [u]) out'
  generalize wrapEach (jobOf wrapper options) (w.ownExports u) default v = result
    at hstep hfollows ⊢
  obtain ⟨p, v'⟩ := result
  -- until the merge nobody has touched the exports of this unit
  have hexports : v'.exports u = w.exports u := by
    rw [hstep.exports, h.others u hu]
  have hbefore : w.Instrumented v' := h.toInstrumented.trans hstep.toInstrumented
  have hmerge : v'.Instrumented (v'.mergeExports u p.updates) :=
    instrumented_mergeExports (hbefore.units.symm ▸ hknown) p.updates
  have hother : ∀ t, t ≠ u → (v'.mergeExports u p.updates).exports t = v.exports t := by
    intro t ht
    rw [mergeExports, exports_replaceExports, if_neg ht, hstep.exports]
  -- the units before keep their wrappers, and this one gets those of its progress
  refine ⟨Function.update out u fun c => (p.replaced.lookup c).getD c,
    { hbefore.trans hmerge with
      rewrites := fun t ht => ?_
      others := fun t ht => ?_
      made := fun t ht x c hc => ?_ }⟩
  · rcases List.mem_append.mp ht with ht | ht
    · have hne : t ≠ u := fun hc => hu (hc ▸ ht)
      rw [Function.update_of_ne hne]
      exact (h.rewrites t ht).later (hstep.later.trans hmerge.later) (hother t hne)
    · obtain rfl := List.mem_singleton.mp ht
      rw [Function.update_self]
      exact rewrites_mergeExports hfollows hexports
  · rw [List.mem_append, List.mem_singleton, not_or] at ht
    rw [← h.others t ht.1]
    exact hother t ht.2
  · rcases List.mem_append.mp ht with ht | ht
    · have hne : t ≠ u := fun hc => hu (hc ▸ ht)
      rw [Function.update_of_ne hne]
      exact h.made t ht x c hc
    · obtain rfl := List.mem_singleton.mp ht
      obtain ⟨c', hc'⟩ := hfollows.replaced x c hc
      obtain ⟨hout, -⟩ := hfollows.output c c' hc'
      rw [Function.update_self]
      rw [hc', Option.getD_some]
      exact hout

variable (options) in
/-- **All targets** are wrapped, and the journal is all that is new in the session. -/
theorem wrapped_wrapAll (hwrapper : wrapper.Discreet) {w : World σ} (hw : w.Sound)
    {done us : List UnitId} (hus : (done ++ us).Nodup)
    (hknown : ∀ u ∈ us, u.index < w.units.size) {v : World σ}
    {out : UnitId → CallableId → CallableId} (h : Wrapped wrapper w v done out) (s : Session) :
    ∃ journal out', (Reloader.wrapAll wrapper options (us.map fun u => (u, w.ownExports u)) s v).1 =
        { s with journal := journal } ∧
      Wrapped wrapper w
        (Reloader.wrapAll wrapper options (us.map fun u => (u, w.ownExports u)) s v).2 (done ++ us)
        out' := by
  induction us generalizing done v out s with
  | nil => exact ⟨s.journal, out, rfl, (List.append_nil done).symm ▸ h⟩
  | cons u us ih =>
    rw [List.forall_mem_cons] at hknown
    have hu : u ∉ done := by
      rw [List.nodup_append] at hus
      exact fun hc => hus.2.2 u hc u List.mem_cons_self rfl
    -- the units that are wrapped grow by one
    have hassoc : done ++ u :: us = (done ++ [u]) ++ us := by simp
    obtain ⟨out₁, hhead⟩ := wrapped_wrapDefinitions options hwrapper hw h hu hknown.1
    obtain ⟨journal, out', hs, hrest⟩ := ih (hassoc ▸ hus) hknown.2 hhead { s with
      journal := s.journal.logAll
        ((v.wrapDefinitions (jobOf wrapper options) u (w.ownExports u)).1.unit u).name
        (v.wrapDefinitions (jobOf wrapper options) u (w.ownExports u)).2 }
    rw [hassoc]
    exact ⟨journal, out', hs, hrest⟩

end Rewriting

/-! ### What a wrapped world has in common with the one before -/

section Rewritten

variable {w w' : World σ} {u : UnitId} {f : CallableId → CallableId}

omit [Host σ] in
/-- An own definition, as it is exported when the unit has been rewritten. -/
theorem Rewrites.export?_of_own (h : w.Rewrites w' u f) {x : String} {d : Definition}
    (hd : (x, d) ∈ w.ownExports u) : w'.export? u x = some (.definition (d.mapCallable f)) := by
  obtain ⟨hx, howner⟩ := w.mem_ownExports.mp hd
  cases d with
  | callable c => exact h.own x c hx howner
  | type t => exact h.other x _ hx nofun

omit [Host σ] in
/-- Whatever else a unit exports stays where it is. -/
theorem Rewrites.export?_of_notOwn (h : w.Rewrites w' u f) {x : String} {v : Value}
    (hx : w.export? u x = some v) (hv : ∀ d, v = .definition d → (x, d) ∉ w.ownExports u) :
    w'.export? u x = some v := by
  refine h.other x v hx fun c hc howner => ?_
  exact hv _ hc (mem_ownExports_callable.mpr ⟨hc ▸ hx, howner⟩)

omit [Host σ] in
/-- A wrapper has the name of what it wraps. -/
theorem Rewrites.nameOf_mapCallable (hw : w.Sound) (hlater : w.Later w') (h : w.Rewrites w' u f)
    {e : String × Definition} (he : e ∈ w.ownExports u) :
    w'.nameOf (e.2.mapCallable f) = w.nameOf e.2 := by
  obtain ⟨hx, howner⟩ := w.mem_ownExports.mp he
  obtain ⟨x, c | t⟩ := e
  · exact (h.name x c hx howner).2
  · exact hlater.nameOf (.type t) (hw.exports u x _ hx)

omit [Host σ] in
/-- **Own definitions** keep their places, and callables among them have been replaced. -/
theorem Rewrites.ownExports_eq (hw : w.Sound) (hlater : w.Later w')
    (hknown : u.index < w.units.size) (h : w.Rewrites w' u f) :
    w'.ownExports u = (w.ownExports u).map fun e => (e.1, e.2.mapCallable f) := by
  -- the entries of the new table, place by place
  have hentries : (w'.exports u).entries =
      (w.exports u).entries.map fun e => (e.1, (w'.export? u e.1).getD e.2) := by
    refine Table.entries_eq_map h.names fun x a hx => ?_
    obtain ⟨b, hread⟩ := Table.mem_names_iff.mp (h.names.symm ▸ Table.mem_names_of_get? hx)
    show w'.export? u x = some ((w'.export? u x).getD a)
    rw [export?, hread, Option.getD_some]
  have hunit : (w'.unit u).name = (w.unit u).name := hlater.unitName u hknown
  rw [ownExports, ownExports, ownDefinitions, ownDefinitions, Table.definitions, Table.definitions,
    hentries, hunit, List.filterMap_map, List.filter_filterMap, List.filter_filterMap,
    List.map_filterMap]
  apply List.filterMap_congr
  rintro ⟨x, v⟩ hmem
  have hx : w.export? u x = some v := (Table.get?_eq_some_iff _ _ _).mpr hmem
  simp only [Function.comp_apply]
  by_cases hv : ∃ d, v = .definition d ∧ (x, d) ∈ w.ownExports u
  · obtain ⟨d, rfl, hd⟩ := hv
    have howner := (w.mem_ownExports.mp hd).2
    have hname : (w'.nameOf (d.mapCallable f)).unit = (w.unit u).name :=
      (congrArg _ (h.nameOf_mapCallable hw hlater hd)).trans howner
    rw [h.export?_of_own hd, Option.getD_some]
    simp only [Value.definition?, Option.map_some, Option.filter_some, w'.owns_iff, w.owns_iff,
      hname, howner, if_true]
  · have hkept : w'.export? u x = some v :=
      h.export?_of_notOwn hx fun d hd hmem => hv ⟨d, hd, hmem⟩
    rw [hkept, Option.getD_some]
    cases v with
    | definition d =>
      -- a definition of another unit, before and after
      have hforeign : (w.nameOf d).unit ≠ (w.unit u).name :=
        fun howner => hv ⟨d, rfl, w.mem_ownExports.mpr ⟨hx, howner⟩⟩
      have hname : w'.nameOf d = w.nameOf d := hlater.nameOf d (hw.exports u x _ hx)
      simp only [Value.definition?, Option.map_some, Option.filter_some, w'.owns_iff, w.owns_iff,
        hname, hforeign, if_false, Option.map_none]
    | _ => rfl

omit [Host σ] in
/-- **Claims** are those of before, callable by callable. -/
theorem Rewrites.claimant?_eq (hw : w.Sound) (hlater : w.Later w')
    (hknown : u.index < w.units.size) (h : w.Rewrites w' u f) (q : QualifiedName) :
    w'.claimant? u q = (w.claimant? u q).map (Definition.mapCallable f) := by
  have hfind : ((w.ownExports u).find? fun e => w'.nameOf (e.2.mapCallable f) == q) =
      (w.ownExports u).find? fun e => w.nameOf e.2 == q := by
    refine List.find?_congr fun e he => ?_
    rw [h.nameOf_mapCallable hw hlater he]
  rw [claimant?, claimant?, h.ownExports_eq hw hlater hknown, List.find?_map, Option.map_map,
    Option.map_map, ← hfind]
  rfl

omit [Host σ] in
/-- Wrapping puts no type in the place of another. -/
theorem Rewrites.typesAmong_eq (hw : w.Sound) (hlater : w.Later w')
    (hknown : u.index < w.units.size) (h : w.Rewrites w' u f) :
    typesAmong (w'.ownExports u) = typesAmong (w.ownExports u) := by
  rw [h.ownExports_eq hw hlater hknown, typesAmong, typesAmong, List.filterMap_map]
  refine List.filterMap_congr fun e _ => ?_
  obtain ⟨x, c | t⟩ := e <;> rfl

omit [Host σ] in
/-- What a unit refers to is what it referred to: no reference to a callable counts. -/
theorem Rewrites.nodes_export? (h : w.Rewrites w' u f) (x : String) :
    (w'.export? u x).map Value.nodes = (w.export? u x).map Value.nodes := by
  cases hx : w.export? u x with
  | none =>
    have hnone : w'.export? u x = none := by
      rw [Option.eq_none_iff_forall_ne_some]
      intro v hv
      obtain ⟨a, ha⟩ := Table.mem_names_iff.mp (h.names ▸ Table.mem_names_of_get? hv)
      exact nomatch hx.symm.trans ha
    rw [hnone]
  | some v =>
    -- callables are no nodes, so a wrapper leads nowhere else than its original
    by_cases hv : ∃ d, v = .definition d ∧ (x, d) ∈ w.ownExports u
    · obtain ⟨d, rfl, hd⟩ := hv
      rw [h.export?_of_own hd]
      cases d <;> rfl
    · rw [h.export?_of_notOwn hx fun d hd hmem => hv ⟨d, hd, hmem⟩]

end Rewritten

namespace Wrapped

variable {wrapper : Wrapper σ} {w w' : World σ} {us : List UnitId}
  {out : UnitId → CallableId → CallableId}

/-- What has been put in the place of a callable is the answer of the wrapper. -/
theorem output (h : Wrapped wrapper w w' us out) :
    ∀ u ∈ us, ∀ x c, (x, .callable c) ∈ w.ownExports u →
      ∃ v, (wrapper c (w.callableName c).text v).1 = out u c := by
  intro u hu x c hc
  obtain ⟨v, -, hv⟩ := h.made u hu x c hc
  exact ⟨v, hv⟩

/-- A slot that does not hold an own callable of its unit has not been written. -/
theorem export?_of_foreign (h : Wrapped wrapper w w' us out) {u : UnitId} {x : String}
    {d : Definition} (hx : w.export? u x = some (.definition d))
    (hd : w.owns (w.unit u).name d = false) : w'.export? u x = some (.definition d) := by
  by_cases hu : u ∈ us
  · refine (h.rewrites u hu).export?_of_notOwn hx fun d' hd' hmem => ?_
    obtain rfl := Value.definition.inj hd'
    exact (w.owns_eq_false_iff _ _).mp hd (w.mem_ownExports.mp hmem).2
  · rw [export?, h.others u hu]
    exact hx

/-- No reference to a callable counts for what is alive. -/
theorem twins (h : Wrapped wrapper w w' us out) : w.Twins w' where
  size := h.types
  types := h.sameTypes
  units := h.units
  objects := h.objects
  registries := h.registries
  roots n := by rw [mem_roots, mem_roots, h.pins, h.roots]
  slots u := by
    refine mem_successors_unit_congr fun x => ?_
    -- a unit that was wrapped leads to the same nodes, any other one is untouched
    by_cases hu : u ∈ us
    · exact (h.rewrites u hu).nodes_export? x
    · rw [export?, h.others u hu, export?]

/-- Wrapping callables brings nothing to life, and lets nothing die. -/
theorem reaches_iff (h : Wrapped wrapper w w' us out) (n : Node) : w'.Reaches n ↔ w.Reaches n :=
  h.twins.reaches_iff n

/-- **A wrapped world is sound**, because what the wrapper returns exists. -/
theorem sound (h : Wrapped wrapper w w' us out) (hw : w.Sound) : w'.Sound where
  exports u x a ha := by
    by_cases hu : u ∈ us
    · have hrewrites := h.rewrites u hu
      obtain ⟨b, hb⟩ := Table.mem_names_iff.mp (hrewrites.names ▸ Table.mem_names_of_get? ha)
      -- a value in a slot is a wrapper, or what has been there before
      by_cases hown : ∃ c, b = .callable c ∧ (w.callable c).owner = (w.unit u).name
      · obtain ⟨c, rfl, howner⟩ := hown
        rw [hrewrites.own x c hb howner, Option.some.injEq] at ha
        rw [← ha]
        exact (hrewrites.name x c hb howner).1
      · rw [hrewrites.other x b hb fun c hc howner => hown ⟨c, hc, howner⟩,
          Option.some.injEq] at ha
        rw [← ha]
        exact h.later.hasValue (hw.exports u x b hb)
    · rw [export?, h.others u hu] at ha
      exact h.later.hasValue (hw.exports u x a ha)
  ancestors s t ht := by
    rw [h.sameTypes.ancestors] at ht
    exact h.types.symm ▸ hw.ancestors s t ht
  mirror s t := by
    rw [h.sameTypes.subtypes, h.sameTypes.ancestors]
    exact hw.mirror s t
  registered r name u hu := by
    rw [unit?, registry, h.registries] at hu
    obtain ⟨hlt, hname⟩ := hw.registered r name u hu
    exact ⟨h.units.symm ▸ hlt, (h.later.unitName u hlt).trans hname⟩

end Wrapped

end World

end HotReload
