import HotReload.Marks

/-!
# Sets of numbered things

A finite set of things that are told apart by a number. Its members can be listed, and marks on
their numbers answer quickly whether something is one of them. What an insertion does to the set is
`NumberedSet.contains_insert`; that the list and the marks agree is part of the type.
-/

namespace HotReload

/-- Things that are **numbered**: no two of them have the same number. -/
class Numbered (α : Type) where
  number : α → Nat
  number_inj : ∀ {a b : α}, number a = number b → a = b

/-- A **set of numbered things**: its members, the newest one first, and marks on their numbers. -/
structure NumberedSet (α : Type) [Numbered α] where
  members : List α
  marks : Marks
  nodup : members.Nodup
  marked_iff : ∀ a, marks.contains (Numbered.number a) = true ↔ a ∈ members

namespace NumberedSet

variable {α : Type} [Numbered α]

/-- The set without members. -/
def empty : NumberedSet α := ⟨[], .empty, List.nodup_nil, by simp⟩

instance : Inhabited (NumberedSet α) := ⟨empty⟩

/-- True if `a` is a member. -/
def contains (s : NumberedSet α) (a : α) : Bool := s.marks.contains (Numbered.number a)

/-- True of the members and of nothing else. -/
theorem contains_iff (s : NumberedSet α) (a : α) : s.contains a = true ↔ a ∈ s.members :=
  s.marked_iff a

/-- Adds a member. A set that has it already stays as it is. -/
def insert (s : NumberedSet α) (a : α) : NumberedSet α :=
  if h : s.contains a = true then s
  else
    { members := a :: s.members
      marks := s.marks.insert (Numbered.number a)
      nodup := List.nodup_cons.2 ⟨fun ha => h ((s.contains_iff a).2 ha), s.nodup⟩
      marked_iff := fun b => by
        rw [Marks.contains_insert, Bool.or_eq_true, beq_iff_eq, s.marked_iff, List.mem_cons]
        exact or_congr_left ⟨Numbered.number_inj, congrArg _⟩ }

/-- After an insertion there is the new member, and there are those from before. -/
theorem contains_insert (s : NumberedSet α) (a b : α) :
    (s.insert a).contains b = true ↔ b = a ∨ s.contains b = true := by
  simp only [contains_iff, insert]
  split
  · next h => exact ⟨.inr, fun hb => hb.elim (· ▸ (s.contains_iff a).1 h) id⟩
  · exact List.mem_cons

@[simp] theorem contains_empty (a : α) : (empty : NumberedSet α).contains a = false :=
  Marks.contains_empty _

end NumberedSet

end HotReload
