/-!
# Ordered tables

A *table* maps names to values and remembers the order in which the names first came in. It is the
shape of a unit's exports, of a type's members, of an object's fields and of a registry's units.

* `Table.insert` keeps the place of a name that is already there and appends one that is not
  (`Table.names_insert`).
* `Table.erase` closes the gap and keeps the order of the rest (`Table.names_erase`).
* `Table.merge` writes one table over another, entry by entry.
* `Table.agrees` compares what two tables hold and not in which order (`Table.agrees_iff`).

Reading after writing is `Table.get?_insert` and `Table.get?_erase`.
-/

namespace HotReload

/-- A **table**: entries in insertion order, with no name twice. -/
structure Table (α : Type) where
  entries : List (String × α)
  nodup : (entries.map (·.1)).Nodup

namespace Table

variable {α : Type}

/-- The table without entries. -/
def empty : Table α := ⟨[], List.nodup_nil⟩

instance : Inhabited (Table α) := ⟨empty⟩

/-- The names, in insertion order. -/
def names (t : Table α) : List String := t.entries.map (·.1)

/-- The values, in insertion order. -/
def values (t : Table α) : List α := t.entries.map (·.2)

/-- How many entries there are. -/
def size (t : Table α) : Nat := t.entries.length

/-- The value under a name. -/
def get? (t : Table α) (name : String) : Option α := t.entries.lookup name

/-- True if the name has an entry. -/
def contains (t : Table α) (name : String) : Bool := (t.get? name).isSome

/-- Writes `a` under `name`, in place if the name occurs and at the end if it does not. -/
def putEntry (name : String) (a : α) : List (String × α) → List (String × α)
  | [] => [(name, a)]
  | e :: es => if e.1 = name then (name, a) :: es else e :: putEntry name a es

theorem map_fst_putEntry (name : String) (a : α) (es : List (String × α)) :
    (putEntry name a es).map (·.1) =
      if name ∈ es.map (·.1) then es.map (·.1) else es.map (·.1) ++ [name] := by
  induction es with
  | nil => simp [putEntry]
  | cons e es ih =>
    by_cases h : e.1 = name
    · simp [putEntry, h]
    · have h' : ¬ name = e.1 := fun hc => h hc.symm
      simp only [putEntry, h, if_false, List.map_cons, ih, List.mem_cons, h', false_or]
      split <;> simp

theorem nodup_putEntry (name : String) (a : α) {es : List (String × α)}
    (h : (es.map (·.1)).Nodup) : ((putEntry name a es).map (·.1)).Nodup := by
  rw [map_fst_putEntry]
  split
  · exact h
  · -- the new name is at the end, and it has not been there before
    next hn =>
    rw [List.nodup_append]
    refine ⟨h, by simp, ?_⟩
    intro x hx y hy
    rw [List.mem_singleton] at hy
    subst hy
    exact fun hc => hn (hc ▸ hx)

/-- Adds an entry, or replaces the value of the one that has this name. -/
def insert (t : Table α) (name : String) (a : α) : Table α :=
  ⟨putEntry name a t.entries, nodup_putEntry name a t.nodup⟩

/-- Removes the entry of a name, if there is one. -/
def erase (t : Table α) (name : String) : Table α :=
  ⟨t.entries.filter (·.1 ≠ name), t.nodup.sublist (List.filter_sublist.map _)⟩

/-- The table that arises by inserting the pairs one after the other: a name keeps its first place
and its last value. -/
def ofList (es : List (String × α)) : Table α :=
  es.foldl (fun t e => t.insert e.1 e.2) empty

/-- Writes `new` over `t`: names of `new` overwrite or are appended, all others stay. -/
def merge (t new : Table α) : Table α :=
  new.entries.foldl (fun t e => t.insert e.1 e.2) t

/-- True if every entry of `t` is one of `u` as well. -/
def isWithin [BEq α] (t u : Table α) : Bool := t.entries.all fun e => u.get? e.1 == some e.2

/-- True if the tables have the same entries, in whatever order. -/
def agrees [BEq α] (t u : Table α) : Bool := t.isWithin u && u.isWithin t

theorem lookup_putEntry (name other : String) (a : α) (es : List (String × α)) :
    (putEntry name a es).lookup other = if other = name then some a else es.lookup other := by
  induction es with
  | nil =>
    by_cases h : other = name
    · simp [putEntry, h]
    · have h' : (other == name) = false := by simp [h]
      simp [putEntry, List.lookup_cons, h, h']
  | cons e es ih =>
    obtain ⟨k, v⟩ := e
    -- this entry is the one to be overwritten, or the write goes further on
    by_cases h : k = name
    · subst h
      by_cases ho : other = k
      · simp [putEntry, ho]
      · have ho' : (other == k) = false := by simp [ho]
        simp [putEntry, ho, List.lookup_cons, ho']
    · by_cases hk : other = k
      · subst hk
        simp [putEntry, h]
      · have hk' : (other == k) = false := by simp [hk]
        simp [putEntry, h, List.lookup_cons, hk', ih]

/-- Reading after writing. -/
theorem get?_insert (t : Table α) (name other : String) (a : α) :
    (t.insert name a).get? other = if other = name then some a else t.get? other :=
  lookup_putEntry name other a t.entries

@[simp] theorem get?_insert_self (t : Table α) (name : String) (a : α) :
    (t.insert name a).get? name = some a := by
  simp [get?_insert]

/-- Reading after removing. -/
theorem get?_erase (t : Table α) (name other : String) :
    (t.erase name).get? other = if other = name then none else t.get? other := by
  obtain ⟨es, hes⟩ := t
  simp only [get?, erase]
  clear hes
  induction es with
  | nil => simp
  | cons e es ih =>
    obtain ⟨k, v⟩ := e
    -- an entry of the removed name is gone, any other is read as before
    by_cases hk : k = name
    · subst hk
      by_cases ho : other = k
      · subst ho
        simpa using ih
      · have ho' : (other == k) = false := by simp [ho]
        simpa [List.lookup_cons, ho, ho'] using ih
    · by_cases ho : other = k
      · subst ho
        simp [hk]
      · have ho' : (other == k) = false := by simp [ho]
        simpa [List.lookup_cons, hk, ho'] using ih

/-- An insertion keeps the order of the names and appends a new one. -/
theorem names_insert (t : Table α) (name : String) (a : α) :
    (t.insert name a).names = if name ∈ t.names then t.names else t.names ++ [name] :=
  map_fst_putEntry name a t.entries

/-- A removal keeps the order of the other names. -/
theorem names_erase (t : Table α) (name : String) :
    (t.erase name).names = t.names.filter (· ≠ name) := by
  simp [names, erase, List.filter_map, Function.comp_def]

/-- Since no name occurs twice, what is found under a name is its only entry. -/
theorem get?_eq_some_iff (t : Table α) (name : String) (a : α) :
    t.get? name = some a ↔ (name, a) ∈ t.entries := by
  obtain ⟨es, hes⟩ := t
  simp only [get?]
  induction es with
  | nil => simp
  | cons e es ih =>
    obtain ⟨k, v⟩ := e
    rw [List.map_cons, List.nodup_cons] at hes
    -- under the first name there is one entry, since the name does not occur again
    by_cases h : name = k
    · subst h
      have hn : (name, a) ∉ es := fun hc => hes.1 (List.mem_map.2 ⟨(name, a), hc, rfl⟩)
      simp [hn, eq_comm]
    · have h' : (name == k) = false := by simp [h]
      simp [List.lookup_cons, h, h', ih hes.2]

/-- Reading after a merge: what is written over comes first. -/
theorem get?_merge (t new : Table α) (name : String) :
    (t.merge new).get? name = (new.get? name).or (t.get? name) := by
  obtain ⟨es, hes⟩ := new
  show (es.foldl (fun t e => t.insert e.1 e.2) t).get? name = (es.lookup name).or (t.get? name)
  induction es generalizing t with
  | nil => rfl
  | cons e es ih =>
    obtain ⟨k, a⟩ := e
    rw [List.map_cons, List.nodup_cons] at hes
    rw [List.foldl_cons, ih _ hes.2, get?_insert, List.lookup_cons]
    by_cases h : name = k
    · -- the name does not occur again
      have hnone : es.lookup name = none := by
        rw [List.lookup_eq_none_iff]
        intro e he
        rw [bne_iff_ne]
        intro hc
        exact hes.1 (List.mem_map.mpr ⟨e, he, hc.symm.trans h⟩)
      rw [hnone, h]
      simp
    · have h' : (name == k) = false := by simp [h]
      rw [if_neg h, h']

/-- What a table holds is found in every table that it lies within. -/
theorem isWithin_iff [BEq α] [LawfulBEq α] (t u : Table α) :
    t.isWithin u = true ↔ ∀ name a, t.get? name = some a → u.get? name = some a := by
  simp [isWithin, get?_eq_some_iff]

/-- Tables that agree cannot be told apart by reading. -/
theorem agrees_iff [BEq α] [LawfulBEq α] (t u : Table α) :
    t.agrees u = true ↔ ∀ name, t.get? name = u.get? name := by
  simp only [agrees, Bool.and_eq_true, isWithin_iff]
  constructor
  · rintro ⟨htu, hut⟩ name
    exact Option.ext fun a => ⟨htu name a, hut name a⟩
  · intro h
    exact ⟨fun name a ha => h name ▸ ha, fun name a ha => (h name).symm ▸ ha⟩

end Table

end HotReload
