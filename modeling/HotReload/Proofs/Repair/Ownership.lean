import HotReload.Reload.Repair
import Mathlib.Data.List.Induction
import Mathlib.Data.List.Basic

/-!
# Own definitions and the names they claim

What a unit owns is read off its table in export order, and each qualified name belongs to the first
definition that has it. Two questions about this decide a repair.

* *Which definition claims a name?* `World.claimant?` finds it, and `World.mem_claims` says that the
  claims of a unit are exactly its claimants.
* *When does a write leave the own definitions alone?* `World.ownDefinitions_insert`: when a copy of
  one foreign definition is replaced by a copy of another. The entry keeps its place
  (`Table.entries_insert`), so not even the order changes.
-/

namespace HotReload

namespace Table

variable {α : Type}

/-- An entry that is there already is replaced in its place. -/
theorem putEntry_of_mem {name : String} {a b : α} {es : List (String × α)}
    (hes : (es.map (·.1)).Nodup) (h : (name, b) ∈ es) :
    putEntry name a es = es.map fun e => if e.1 = name then (name, a) else e := by
  induction es with
  | nil => cases h
  | cons e es ih =>
    rw [List.map_cons, List.nodup_cons] at hes
    rw [putEntry, List.map_cons]
    by_cases he : e.1 = name
    · rw [if_pos he, if_pos he]
      -- the name occurs only here, so the rest is left as it is
      have hrest : ∀ e' ∈ es, (if e'.1 = name then (name, a) else e') = e' := by
        intro e' he'
        rw [if_neg]
        intro hc
        exact hes.1 (he ▸ hc ▸ List.mem_map_of_mem he')
      rw [List.map_congr_left hrest, List.map_id']
    · have hmem : (name, b) ∈ es := by
        rcases List.mem_cons.mp h with h | h
        · exact absurd (congrArg Prod.fst h.symm) he
        · exact h
      rw [if_neg he, if_neg he, ih hes.2 hmem]

/-- Writing under a name that is there replaces one entry in its place. -/
theorem entries_insert {t : Table α} {name : String} {b : α} (h : t.get? name = some b) (a : α) :
    (t.insert name a).entries = t.entries.map fun e => if e.1 = name then (name, a) else e :=
  putEntry_of_mem t.nodup ((t.get?_eq_some_iff name b).mp h)

/-- What can be read has a name in the table. -/
theorem mem_names_of_get? {t : Table α} {name : String} {b : α} (h : t.get? name = some b) :
    name ∈ t.names :=
  List.mem_map_of_mem ((t.get?_eq_some_iff name b).mp h)

/-- Tables with the same entries are the same. -/
theorem ext_entries {t u : Table α} (h : t.entries = u.entries) : t = u := by
  cases t
  cases u
  simp only at h
  subst h
  rfl

/-- Writing what is there changes nothing. -/
theorem insert_eq_self {t : Table α} {name : String} {a : α} (h : t.get? name = some a) :
    t.insert name a = t := by
  apply ext_entries
  rw [entries_insert h]
  -- the entry that is replaced is replaced by itself
  have hid : ∀ e ∈ t.entries, (if e.1 = name then (name, a) else e) = e := by
    rintro ⟨x, b⟩ he
    split
    · next hx =>
      have hb := (t.get?_eq_some_iff x b).mpr he
      rw [show x = name from hx, h, Option.some.injEq] at hb
      rw [hb, show x = name from hx]
    · rfl
  rw [List.map_congr_left hid, List.map_id']

/-- Merging what is there changes nothing. -/
theorem merge_eq_self {t new : Table α} (h : ∀ x a, new.get? x = some a → t.get? x = some a) :
    t.merge new = t := by
  have hfold : ∀ es : List (String × α), (∀ e ∈ es, t.get? e.1 = some e.2) →
      es.foldl (fun t e => t.insert e.1 e.2) t = t := by
    intro es hes
    induction es with
    | nil => rfl
    | cons e es ih =>
      rw [List.foldl_cons, insert_eq_self (hes e List.mem_cons_self)]
      exact ih fun e' he' => hes e' (List.mem_cons_of_mem e he')
  exact hfold new.entries fun e he => h e.1 e.2 ((new.get?_eq_some_iff e.1 e.2).mpr he)

/-- A table merged over itself is unchanged. -/
theorem merge_self (t : Table α) : t.merge t = t := merge_eq_self fun _ _ h => h

/-- The definitions of a table are the entries that are definitions. -/
theorem mem_definitions {t : Table Value} {x : String} {d : Definition} :
    (x, d) ∈ t.definitions ↔ t.get? x = some (.definition d) := by
  rw [get?_eq_some_iff, definitions, List.mem_filterMap]
  constructor
  · rintro ⟨⟨y, v⟩, hmem, hv⟩
    rw [Option.map_eq_some_iff] at hv
    obtain ⟨d', hd', heq⟩ := hv
    rw [Value.definition?_eq_some] at hd'
    obtain ⟨rfl, rfl⟩ := Prod.mk.inj heq
    exact hd' ▸ hmem
  · intro h
    exact ⟨(x, .definition d), h, rfl⟩

end Table

namespace World

variable {σ : Type} (w : World σ)

@[simp] theorem unit_nameOf (d : Definition) : (w.nameOf d).unit = w.ownerOf d := rfl

/-- A unit owns what has its name in front. -/
theorem owns_iff (unit : String) (d : Definition) :
    w.owns unit d = true ↔ (w.nameOf d).unit = unit := by
  rw [owns, beq_iff_eq, unit_nameOf]

theorem owns_eq_false_iff (unit : String) (d : Definition) :
    w.owns unit d = false ↔ (w.nameOf d).unit ≠ unit := by
  rw [← Bool.not_eq_true, owns_iff]

/-- Own definitions are the entries with the name of the unit in front. -/
theorem mem_ownDefinitions {unit : String} {table : Table Value} {x : String} {d : Definition} :
    (x, d) ∈ w.ownDefinitions unit table ↔
      table.get? x = some (.definition d) ∧ (w.nameOf d).unit = unit := by
  rw [ownDefinitions, List.mem_filter, Table.mem_definitions, owns_iff]

/-- The other ones are foreign. -/
theorem mem_foreignDefinitions {unit : String} {table : Table Value} {x : String}
    {d : Definition} :
    (x, d) ∈ w.foreignDefinitions unit table ↔
      table.get? x = some (.definition d) ∧ w.owns unit d = false := by
  rw [foreignDefinitions, List.mem_filter, Table.mem_definitions, Bool.not_eq_true']

/-- **Copies do not count.** Replacing a copy of a foreign definition by a copy of another one
leaves what the unit owns, order included. -/
theorem ownDefinitions_insert {unit : String} {table : Table Value} {x : String}
    {old new : Definition} (h : table.get? x = some (.definition old))
    (hold : w.owns unit old = false) (hnew : w.owns unit new = false) :
    w.ownDefinitions unit (table.insert x (.definition new)) = w.ownDefinitions unit table := by
  simp only [ownDefinitions, Table.definitions, Table.entries_insert h, List.filterMap_map,
    List.filter_filterMap]
  apply List.filterMap_congr
  rintro ⟨y, v⟩ hmem
  rw [Function.comp_apply]
  split
  · next hy =>
    -- this is the entry that is replaced, and it is filtered out before and after
    have hv := (table.get?_eq_some_iff y v).mpr hmem
    rw [show y = x from hy, h, Option.some.injEq] at hv
    subst hv
    simp only [Value.definition?, Option.map_some]
    rw [Option.filter_some_neg (by simp [hnew]), Option.filter_some_neg (by simp [hold])]
  · rfl

/-! ### Claims -/

/-- What a unit exports and owns, in export order. -/
def ownExports (u : UnitId) : List (String × Definition) :=
  w.ownDefinitions (w.unit u).name (w.exports u)

/-- **Claimant of a name.** The first definition in the export order of `u` that `u` owns and that
has the name. -/
def claimant? (u : UnitId) (q : QualifiedName) : Option Definition :=
  ((w.ownExports u).find? fun e => w.nameOf e.2 == q).map (·.2)

/-- The same for the exports of a unit. -/
theorem mem_ownExports {u : UnitId} {x : String} {d : Definition} :
    (x, d) ∈ w.ownExports u ↔
      w.export? u x = some (.definition d) ∧ (w.nameOf d).unit = (w.unit u).name :=
  w.mem_ownDefinitions

/-- One step in the making of claims. -/
theorem claims_append_singleton (current : List (String × Definition)) (e : String × Definition) :
    w.claims (current ++ [e]) =
      if ((w.claims current).map (·.1)).contains (w.nameOf e.2) then w.claims current
      else w.claims current ++ [(w.nameOf e.2, e.2)] := by
  rw [claims, claims, List.foldl_append, List.foldl_cons, List.foldl_nil]

/-- The claims are the first definitions of each name. -/
theorem mem_claims {current : List (String × Definition)} {q : QualifiedName} {d : Definition} :
    (q, d) ∈ w.claims current ↔
      (current.find? fun e => w.nameOf e.2 == q).map (·.2) = some d := by
  -- claims are made from the front, so the induction takes definitions off the end
  induction current using List.reverseRecOn generalizing d with
  | nil => simp [claims]
  | append_singleton current e ih =>
    have hnames : ((w.claims current).map (·.1)).contains q = true ↔
        ∃ d, (current.find? fun e => w.nameOf e.2 == q).map (·.2) = some d := by
      rw [List.contains_iff_mem, List.mem_map]
      constructor
      · rintro ⟨⟨q', d'⟩, hmem, rfl⟩
        exact ⟨d', ih.mp hmem⟩
      · rintro ⟨d', hd'⟩
        exact ⟨(q, d'), ih.mpr hd', rfl⟩
    rw [claims_append_singleton, List.find?_append]
    cases hfind : current.find? fun e => w.nameOf e.2 == q with
    | some e' =>
      -- the name has been claimed before, so the new definition changes nothing for it
      rw [Option.some_or, ← hfind]
      split
      · exact ih
      · next hnot =>
        rw [List.mem_append, ih, List.mem_singleton, Prod.mk.injEq]
        refine or_iff_left fun hc => ?_
        rw [← hc.1] at hnot
        exact hnot (hnames.mpr ⟨e'.2, by rw [hfind, Option.map_some]⟩)
    | none =>
      -- the name is free, and the new definition claims it if it has it
      rw [Option.none_or]
      have hfree : ∀ d, (q, d) ∉ w.claims current := by
        intro d hmem
        have := ih.mp hmem
        rw [hfind] at this
        cases this
      by_cases hq : w.nameOf e.2 = q
      · have hnot : ¬ ((w.claims current).map (·.1)).contains (w.nameOf e.2) = true := by
          rw [hq, hnames, hfind]
          simp
        rw [if_neg hnot, List.mem_append, List.mem_singleton, Prod.mk.injEq]
        simp [hfree, hq, eq_comm]
      · split
        · simp [hfree, hq]
        · simp [hfree, hq, Ne.symm hq]

/-- A claim is made by an own definition that has the name. -/
theorem claimant?_spec {u : UnitId} {q : QualifiedName} {d : Definition}
    (h : w.claimant? u q = some d) :
    w.nameOf d = q ∧ q.unit = (w.unit u).name ∧ ∃ x, w.export? u x = some (.definition d) := by
  rw [claimant?, Option.map_eq_some_iff] at h
  obtain ⟨⟨x, d'⟩, hfind, rfl⟩ := h
  have hq := List.find?_some hfind
  rw [beq_iff_eq] at hq
  obtain ⟨hx, hunit⟩ := w.mem_ownExports.mp (List.mem_of_find?_eq_some hfind)
  exact ⟨hq, hq ▸ hunit, x, hx⟩

/-- A name that an own definition has is claimed. -/
theorem claimant?_isSome {u : UnitId} {x : String} {d : Definition}
    (h : w.export? u x = some (.definition d)) (hd : (w.nameOf d).unit = (w.unit u).name) :
    ∃ d', w.claimant? u (w.nameOf d) = some d' := by
  have hmem := w.mem_ownExports.mpr ⟨h, hd⟩
  cases hfind : (w.ownExports u).find? fun e => w.nameOf e.2 == w.nameOf d with
  | some e => exact ⟨e.2, by rw [claimant?, hfind, Option.map_some]⟩
  | none =>
    have hne := List.find?_eq_none.mp hfind _ hmem
    simp at hne

/-- What a unit owns claims the names of which it is the claimant. -/
theorem mem_claims_ownExports {u : UnitId} {q : QualifiedName} {d : Definition} :
    (q, d) ∈ w.claims (w.ownExports u) ↔ w.claimant? u q = some d :=
  w.mem_claims

/-- A name is claimed if something claims it. -/
theorem claims_contains {u : UnitId} {q : QualifiedName} :
    ((w.claims (w.ownExports u)).map (·.1)).contains q = (w.claimant? u q).isSome := by
  rw [Bool.eq_iff_iff, List.contains_iff_mem, List.mem_map, Option.isSome_iff_exists]
  constructor
  · rintro ⟨⟨q', d⟩, hmem, rfl⟩
    exact ⟨d, w.mem_claims_ownExports.mp hmem⟩
  · rintro ⟨d, hd⟩
    exact ⟨(q, d), w.mem_claims_ownExports.mpr hd, rfl⟩

end World

end HotReload
