import HotReload.Proofs.Repair.Ownership
import HotReload.World.Units

/-!
# Merging tables

A merge writes the entries of a table over another one, and what it leaves is told in two parts: the
names that were there stay where they are and the new ones follow in the order of the table that is
merged (`Table.names_merge_append`), and under each name stands what was written over it last
(`Table.get?_merge`). A table is determined by these two, its names in order and what is read under
them (`Table.ext_get?`).

Tables act on the exports of units. One merge after the other is the same as one merge of the table
that collects the entries of both (`Table.merge_ofList`), and to merge a table twice is to merge it
once (`Table.merge_eq_self`). All of this is about order as much as about values, since the order of
exports decides which definition claims a name in a repair.
-/

namespace HotReload

namespace Store

variable {α : Type}

/-- The last cell is written over. -/
theorem setIfInBounds_push_size (cells : Array α) (a b : α) :
    (cells.push a).setIfInBounds cells.size b = cells.push b := by
  refine Array.ext (by rw [Array.size_setIfInBounds, Array.size_push, Array.size_push]) ?_
  intro j hj hj'
  grind

/-- Of two writes to a cell the second one counts. -/
theorem set_set [Inhabited α] (s : Store α) (i : Nat) (a b : α) :
    (s.set i a).set i b = s.set i b := by
  obtain ⟨cells⟩ := s
  by_cases h : i < cells.size
  · have hset : ∀ c, (Store.mk cells).set i c = ⟨cells.setIfInBounds i c⟩ := fun c => if_pos h
    have hsize : i < (cells.setIfInBounds i a).size := by rwa [Array.size_setIfInBounds]
    rw [hset, hset]
    refine (if_pos hsize).trans ?_
    rw [Array.setIfInBounds_setIfInBounds]
  · -- the first write makes the cell, as the last one of the store
    obtain ⟨before, hbefore, hset⟩ : ∃ before : Array α, before.size = i ∧
        ∀ c, (Store.mk cells).set i c = ⟨before.push c⟩ := by
      refine ⟨cells ++ Array.replicate (i - cells.size) default, ?_, fun c => if_neg h⟩
      rw [Array.size_append, Array.size_replicate]
      omega
    have hsize : i < (before.push a).size := by
      rw [Array.size_push, hbefore]
      exact Nat.lt_succ_self i
    rw [hset, hset]
    refine (if_pos hsize).trans ?_
    rw [← hbefore, setIfInBounds_push_size]

end Store

namespace Table

variable {α : Type}

/-! ### The names of a table and what is read under them -/

/-- Tables of the same names are told apart by reading. -/
theorem entries_eq_map {t u : Table α} {f : String × α → α} (hnames : u.names = t.names)
    (hget : ∀ x a, t.get? x = some a → u.get? x = some (f (x, a))) :
    u.entries = t.entries.map fun e => (e.1, f e) := by
  have hlength : u.entries.length = t.entries.length := by
    have hcount := congrArg List.length hnames
    rwa [names, names, List.length_map, List.length_map] at hcount
  refine List.ext_getElem (by rw [hlength, List.length_map]) fun i hi hi' => ?_
  rw [List.getElem_map]
  have hit : i < t.entries.length := hlength ▸ hi
  have hkey : (u.entries[i]).1 = (t.entries[i]).1 := by
    have hi₁ : i < u.names.length := by rwa [names, List.length_map]
    have hi₂ : i < t.names.length := by rwa [names, List.length_map]
    calc (u.entries[i]).1 = u.names[i] := List.getElem_map _ |>.symm
      _ = t.names[i] := by simp only [hnames]
      _ = (t.entries[i]).1 := List.getElem_map _
  -- what stands at a place is what is read under the name there
  have hread : t.get? (t.entries[i]).1 = some (t.entries[i]).2 :=
    (get?_eq_some_iff _ _ _).mpr (List.getElem_mem hit)
  have hread' : u.get? (t.entries[i]).1 = some (u.entries[i]).2 := by
    rw [← hkey]
    exact (get?_eq_some_iff _ _ _).mpr (List.getElem_mem hi)
  have hvalue := (hget _ _ hread).symm.trans hread'
  exact Prod.ext hkey (Option.some.inj hvalue).symm

/-- **Names and values make a table.** Tables are the same if they have the same names in the same
order and the same is read in them. -/
theorem ext_get? {t u : Table α} (hnames : t.names = u.names) (hget : ∀ x, t.get? x = u.get? x) :
    t = u := by
  refine ext_entries ?_
  rw [entries_eq_map (f := fun e => e.2) hnames fun x a hx => (hget x).trans hx]
  exact List.map_id' _

theorem mem_names_iff {t : Table α} {name : String} :
    name ∈ t.names ↔ ∃ a, t.get? name = some a := by
  refine ⟨fun h => ?_, fun ⟨a, ha⟩ => mem_names_of_get? ha⟩
  obtain ⟨⟨_, a⟩, hentry, rfl⟩ := List.mem_map.mp h
  exact ⟨a, (get?_eq_some_iff _ _ _).mpr hentry⟩

theorem sublist_names_definitions (t : Table Value) :
    (t.definitions.map (·.1)).Sublist t.names := by
  rw [definitions, names]
  induction t.entries with
  | nil => exact .slnil
  | cons e es ih =>
    -- an entry that holds no definition is left out, and none is moved
    cases hd : e.2.definition? with
    | none =>
      simp only [List.filterMap_cons, hd, Option.map_none]
      exact ih.cons e.1
    | some d =>
      simp only [List.filterMap_cons, hd, Option.map_some, List.map_cons]
      exact ih.cons_cons e.1

/-! ### Merges -/

/-- **The order of a merge.** The names that were there come first, as they were, and the new names
follow in the order in which the table has them. -/
theorem names_merge_append (t new : Table α) :
    (t.merge new).names = t.names ++ new.names.filter fun x => x ∉ t.names := by
  -- the induction is on the entries to be inserted, for every table that there is by then
  have hfold : ∀ es : List (String × α), (es.map (·.1)).Nodup → ∀ u : Table α,
      (es.foldl (fun t e => t.insert e.1 e.2) u).names =
        u.names ++ (es.map (·.1)).filter fun x => x ∉ u.names := by
    intro es
    induction es with
    | nil => simp
    | cons e es ih =>
      intro hes u
      rw [List.map_cons, List.nodup_cons] at hes
      rw [List.foldl_cons, ih hes.2, names_insert, List.map_cons]
      by_cases he : e.1 ∈ u.names
      · rw [if_pos he, List.filter_cons_of_neg (by simpa using he)]
      · -- the new name is at the end now, and it does not occur again
        have hrest : (es.map (·.1)).filter (fun x => x ∉ u.names ++ [e.1]) =
            (es.map (·.1)).filter fun x => x ∉ u.names := by
          refine List.filter_congr fun x hx => ?_
          have hne : x ≠ e.1 := fun h => hes.1 (h ▸ hx)
          simp [hne]
        rw [if_neg he, hrest, List.filter_cons_of_pos (by simpa using he), List.append_assoc,
          List.singleton_append]
  exact hfold new.entries new.nodup t

/-- A table merged over names that are all there keeps them in their order. -/
theorem names_merge {t new : Table α} (h : ∀ x ∈ new.names, x ∈ t.names) :
    (t.merge new).names = t.names := by
  have hnone : new.names.filter (fun x => x ∉ t.names) = [] :=
    List.filter_eq_nil_iff.mpr fun x hx => by simpa using h x hx
  rw [names_merge_append, hnone, List.append_nil]

/-- What is inserted into a table before it is merged may be inserted afterwards. -/
theorem merge_insert (t new : Table α) (name : String) (a : α) :
    t.merge (new.insert name a) = (t.merge new).insert name a := by
  refine ext_get? ?_ fun x => ?_
  · -- names: the new one is put at the end, unless one of the two tables has it
    rw [names_insert, names_merge_append, names_merge_append, names_insert]
    by_cases hnew : name ∈ new.names
    · have hmem : name ∈ t.names ++ new.names.filter fun x => x ∉ t.names := by
        by_cases ht : name ∈ t.names <;> simp [ht, hnew]
      rw [if_pos hnew, if_pos hmem]
    · rw [if_neg hnew, List.filter_append]
      by_cases ht : name ∈ t.names <;> simp [ht, hnew]
  · -- values: the last write wins
    rw [get?_merge, get?_insert, get?_insert, get?_merge]
    split <;> rfl

/-- **Collected entries.** To merge the table that collects some entries is to insert the entries
one after the other, also if names occur among them more than once. -/
theorem merge_ofList (t : Table α) (es : List (String × α)) :
    t.merge (ofList es) = es.foldl (fun t e => t.insert e.1 e.2) t := by
  -- entries are collected from the front, so the induction takes them off the end
  induction es using List.reverseRecOn with
  | nil => rfl
  | append_singleton es e ih =>
    have hcollected : ofList (es ++ [e]) = (ofList es).insert e.1 e.2 := by
      rw [ofList, List.foldl_concat, ofList]
    rw [hcollected, merge_insert, ih, List.foldl_concat]

/-- **One merge after the other** is one merge of the entries of both. -/
theorem merge_merge (t a b : Table α) :
    (t.merge a).merge b = t.merge (ofList (a.entries ++ b.entries)) := by
  rw [merge_ofList, List.foldl_append, merge, merge]

/-- To merge a table twice is to merge it once. -/
theorem merge_merge_self (t a : Table α) : (t.merge a).merge a = t.merge a := by
  refine merge_eq_self fun x v hx => ?_
  rw [get?_merge, hx, Option.some_or]

end Table

namespace World

variable {σ : Type}

/-- Of two tables that a unit is given the second one counts. -/
theorem replaceExports_replaceExports (w : World σ) (u : UnitId) (a b : Table Value) :
    (w.replaceExports u a).replaceExports u b = w.replaceExports u b := by
  have hunit : (w.replaceExports u a).unit u = { w.unit u with exports := a } := by
    rw [replaceExports, unit_putUnit, if_pos rfl]
  rw [replaceExports, hunit, replaceExports, replaceExports, putUnit, putUnit, putUnit,
    Store.set_set]

/-- **Tables act on units by merging.** Two merges are one merge of the table that collects the
entries of the first one and then those of the second, and the same merge twice is one. A merge
leaves each name once: those that were there in their places, and then the new ones in the order of
the table. Under a name stands what the table has there, and what stood there before if it has
nothing. -/
theorem mergeExports_action (w : World σ) (u : UnitId) (a b : Table Value) :
    (w.mergeExports u a).mergeExports u b = w.mergeExports u (.ofList (a.entries ++ b.entries)) ∧
    (w.mergeExports u a).mergeExports u a = w.mergeExports u a ∧
    ((w.mergeExports u a).exports u).names.Nodup ∧
    ((w.mergeExports u a).exports u).names =
      (w.exports u).names ++ a.names.filter (fun x => x ∉ (w.exports u).names) ∧
    ∀ x, (w.mergeExports u a).export? u x = (a.get? x).or (w.export? u x) := by
  have hexports : (w.mergeExports u a).exports u = (w.exports u).merge a :=
    w.exports_replaceExports_self u _
  -- two merges into one unit write its table twice, and the second write counts
  have htwice : ∀ c, (w.mergeExports u a).mergeExports u c =
      w.replaceExports u (((w.exports u).merge a).merge c) := by
    intro c
    rw [mergeExports, hexports, mergeExports, replaceExports_replaceExports]
  refine ⟨?_, ?_, ?_, ?_, fun x => ?_⟩
  · rw [htwice, Table.merge_merge, mergeExports]
  · rw [htwice, Table.merge_merge_self, mergeExports]
  · exact ((w.mergeExports u a).exports u).nodup
  · rw [hexports, Table.names_merge_append]
  · rw [export?, hexports, Table.get?_merge, export?]

/-- A name that is there keeps its place and takes the new value, a new one goes to the end. -/
example :
    ((Table.ofList [("x", Value.int 1), ("y", .int 2)]).merge
      (.ofList [("z", .int 30), ("y", .int 20)])).entries =
        [("x", .int 1), ("y", .int 20), ("z", .int 30)] := by
  decide

end World

end HotReload
