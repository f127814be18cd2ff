/-!
# Stores of cells

Everything the engine tells apart by identity lives in a *store*: a table of cells numbered from 0
in the order they were allocated. A number is never handed out twice, so two references denote the
same thing exactly when their numbers are equal.

Reading is total: a number that was never handed out reads as the default cell. Writing is total
too, because a write past the end grows the store. So the two laws of a store carry no bounds:

* `Store.get_set`: a write changes the cell it names and no other;
* `Store.get_alloc`: allocation changes no cell but the one it returns.
-/

namespace HotReload

/-- A **store**: cells numbered from 0 in the order they were allocated. -/
structure Store (α : Type) where
  cells : Array α

namespace Store

variable {α : Type} [Inhabited α]

/-- The store without cells. -/
def empty : Store α := ⟨#[]⟩

/-- The number that the next allocation will return. -/
def size (s : Store α) : Nat := s.cells.size

/-- The cell numbered `i`, the default cell if there is none. -/
def get (s : Store α) (i : Nat) : α := s.cells.getD i default

/-- Writes the cell numbered `i`. -/
def set (s : Store α) (i : Nat) (a : α) : Store α :=
  if i < s.size then ⟨s.cells.setIfInBounds i a⟩
  -- past the end: the cells in between get the default that they read as before
  else ⟨(s.cells ++ Array.replicate (i - s.size) default).push a⟩

/-- Applies `f` to the cell numbered `i`. -/
def modify (s : Store α) (i : Nat) (f : α → α) : Store α := s.set i (f (s.get i))

/-- Appends a cell and returns its number. -/
def alloc (s : Store α) (a : α) : Nat × Store α := (s.size, ⟨s.cells.push a⟩)

theorem get_eq (s : Store α) (i : Nat) : s.get i = s.cells[i]?.getD default := by
  simp [get, Array.getD_eq_getD_getElem?]

/-- A write changes the cell it names and no other. -/
theorem get_set (s : Store α) (i j : Nat) (a : α) :
    (s.set i a).get j = if j = i then a else s.get j := by
  by_cases h : i < s.size
  · by_cases hj : j = i
    · subst hj
      simp only [size] at h
      simp [set, size, get_eq, h]
    · have hne : ¬ i = j := fun e => hj e.symm
      simp [set, h, get_eq, hj, hne]
  · -- past the end: read at the new cell, below the old end, or in between
    simp only [size] at h
    simp only [set, size, h, if_false, get_eq, Array.getElem?_push, Array.getElem?_append,
      Array.getElem?_replicate, Array.size_append, Array.size_replicate]
    by_cases hj : j = i
    · subst hj
      have hsize : s.cells.size + (j - s.cells.size) = j := by omega
      simp [hsize]
    · have hlast : ¬ j = s.cells.size + (i - s.cells.size) := by omega
      simp only [hlast, hj, if_false]
      split
      · rfl
      · next hge =>
        have hnone : s.cells[j]? = none := by simp; omega
        rw [hnone]
        split <;> rfl

@[simp] theorem get_set_self (s : Store α) (i : Nat) (a : α) : (s.set i a).get i = a := by
  simp [get_set]

theorem get_set_of_ne (s : Store α) {i j : Nat} (a : α) (h : j ≠ i) :
    (s.set i a).get j = s.get j := by
  simp [get_set, h]

/-- Allocation changes no cell but the one it returns. -/
theorem get_alloc (s : Store α) (a : α) (j : Nat) :
    (s.alloc a).2.get j = if j = (s.alloc a).1 then a else s.get j := by
  simp only [alloc, size, get_eq, Array.getElem?_push]
  split <;> rfl

omit [Inhabited α] in
@[simp] theorem alloc_fst (s : Store α) (a : α) : (s.alloc a).1 = s.size := rfl

omit [Inhabited α] in
@[simp] theorem size_alloc (s : Store α) (a : α) : (s.alloc a).2.size = s.size + 1 := by
  simp [alloc, size]

end Store

instance {α : Type} [Inhabited α] : Inhabited (Store α) := ⟨Store.empty⟩

end HotReload
