/-!
# Marks

A set of numbers as a binary tree in which the number leads the way: at each turn it says left or
right, and it stops at the node that holds its mark. So asking and marking take about as many steps
as the number has digits, and an older set stays as it is when a newer one is made from it.

What marking a number does to the set is `Marks.contains_insert`.
-/

namespace HotReload

/-- **Marks** on numbers. -/
inductive Marks where
  | empty
  | fork (marked : Bool) (left right : Marks)
  deriving Inhabited

namespace Marks

/-! ### Ways -/

/-- The turns on the way to a number, at most `bound` of them: none for zero; for a number above it
the parity of its predecessor, and then the turns for half the predecessor. -/
def turns : Nat → Nat → List Bool
  | 0, _ => []
  | _, 0 => []
  | bound + 1, i + 1 => (i % 2 == 1) :: turns bound (i / 2)

/-- The way to a number. -/
def way (i : Nat) : List Bool := turns i i

/-- The number that a way leads to. -/
def goal : List Bool → Nat
  | [] => 0
  | d :: ds => 2 * goal ds + d.toNat + 1

theorem goal_turns (bound i : Nat) (h : i ≤ bound) : goal (turns bound i) = i := by
  induction bound generalizing i with
  | zero => simp [turns, goal]; omega
  | succ bound ih =>
    cases i with
    | zero => rfl
    | succ i =>
      -- the predecessor is told by its parity and its half
      have hhalf : goal (turns bound (i / 2)) = i / 2 := ih _ (by omega)
      rcases Nat.mod_two_eq_zero_or_one i with hm | hm <;> simp [turns, goal, hhalf, hm] <;> omega

/-- Ways to different numbers differ. -/
theorem way_inj {i j : Nat} : way i = way j ↔ i = j := by
  constructor
  · intro h
    have hg := congrArg goal h
    simpa [way, goal_turns] using hg
  · exact congrArg way

/-! ### Marking and asking -/

/-- True if the root is marked. -/
def here : Marks → Bool
  | empty => false
  | fork b _ _ => b

/-- The marks on the left. -/
def left : Marks → Marks
  | empty => empty
  | fork _ l _ => l

/-- The marks on the right. -/
def right : Marks → Marks
  | empty => empty
  | fork _ _ r => r

/-- True if there is a mark at the end of a way. -/
def containsAt : List Bool → Marks → Bool
  | [], m => m.here
  | false :: ds, m => containsAt ds m.left
  | true :: ds, m => containsAt ds m.right

/-- Marks the end of a way. -/
def insertAt : List Bool → Marks → Marks
  | [], m => fork true m.left m.right
  | false :: ds, m => fork m.here (insertAt ds m.left) m.right
  | true :: ds, m => fork m.here m.left (insertAt ds m.right)

/-- True if the number is marked. -/
def contains (m : Marks) (i : Nat) : Bool := containsAt (way i) m

/-- Marks a number. -/
def insert (m : Marks) (i : Nat) : Marks := insertAt (way i) m

theorem containsAt_empty (ds : List Bool) : containsAt ds empty = false := by
  induction ds with
  | nil => rfl
  | cons d ds ih => cases d <;> simpa [containsAt, left, right] using ih

theorem containsAt_insertAt (ds es : List Bool) (m : Marks) :
    containsAt es (insertAt ds m) = (es == ds || containsAt es m) := by
  induction ds generalizing es m with
  | nil =>
    rcases es with _ | ⟨e, es⟩
    · rfl
    · cases e <;> rfl
  -- ways that turn apart at the first turn meet different halves of the tree
  | cons d ds ih =>
    rcases es with _ | ⟨e, es⟩
    · cases d <;> rfl
    · cases d <;> cases e <;> simp [insertAt, containsAt, left, right, ih]

@[simp] theorem contains_empty (i : Nat) : empty.contains i = false := containsAt_empty _

/-- A number is marked after `i` has been if it is `i` or was marked before. -/
theorem contains_insert (m : Marks) (i j : Nat) :
    (m.insert i).contains j = (j == i || m.contains j) := by
  have hw : (way j == way i) = (j == i) := by
    rw [Bool.eq_iff_iff, beq_iff_eq, beq_iff_eq, way_inj]
  rw [insert, contains, contains, containsAt_insertAt, hw]

end Marks

end HotReload
