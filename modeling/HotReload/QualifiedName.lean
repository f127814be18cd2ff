/-!
# Qualified names

A *qualified name* is the name of a definition or of a type member together with the unit that owns
it. Unlike the definition's identity it survives recompilation: the old and the new `b.C` share it,
and the repair after a reload matches old definitions with new ones by it.

Names are ordered by unit, then by path, both in code point order (`QualifiedName.cmp`).
-/

namespace HotReload

/-- A **qualified name**: the owning unit and the path inside it, `["C"]` for a definition and
`["C", "m"]` for a member of a type. -/
structure QualifiedName where
  unit : String
  path : List String
  deriving DecidableEq, Repr, Inhabited

namespace QualifiedName

/-- The name of a definition directly inside a unit. -/
def top (unit name : String) : QualifiedName := ⟨unit, [name]⟩

/-- The name one level deeper. -/
def child (q : QualifiedName) (segment : String) : QualifiedName :=
  { q with path := q.path ++ [segment] }

/-- The last segment. -/
def name (q : QualifiedName) : String := q.path.getLast?.getD ""

/-- True if the name belongs to `unit`. -/
def isIn (q : QualifiedName) (unit : String) : Bool := q.unit == unit

/-- The written form: unit and segments, joined by dots. -/
def text (q : QualifiedName) : String := q.path.foldl (fun s segment => s ++ "." ++ segment) q.unit

/-- Order by unit, then by path. -/
def cmp (p q : QualifiedName) : Ordering := (compare p.unit q.unit).then (compare p.path q.path)

/-- The order as a test. -/
def le (p q : QualifiedName) : Bool := (cmp p q).isLE

/-- Puts a name into an ordered list, in front of the names that are not smaller. -/
def insertOrdered (q : QualifiedName) : List QualifiedName → List QualifiedName
  | [] => [q]
  | p :: ps => if q.le p then q :: p :: ps else p :: insertOrdered q ps

/-- The names in order, repetitions kept. -/
def ordered (qs : List QualifiedName) : List QualifiedName := qs.foldr insertOrdered []

/-- The names in order, each of them once. -/
def orderedSet (qs : List QualifiedName) : List QualifiedName := ordered qs.eraseDups

theorem mem_insertOrdered {q p : QualifiedName} {qs : List QualifiedName} :
    p ∈ insertOrdered q qs ↔ p = q ∨ p ∈ qs := by
  induction qs with
  | nil => simp [insertOrdered]
  | cons r rs ih =>
    unfold insertOrdered
    -- either it stands here, or it goes further down
    split
    · simp
    · simp only [List.mem_cons, ih]
      exact ⟨fun h => by rcases h with h | h | h <;> simp [h],
        fun h => by rcases h with h | h | h <;> simp [h]⟩

/-- Ordering loses no name and adds none. -/
@[simp] theorem mem_ordered {p : QualifiedName} {qs : List QualifiedName} :
    p ∈ ordered qs ↔ p ∈ qs := by
  induction qs with
  | nil => simp [ordered]
  | cons q qs ih =>
    have h : ordered (q :: qs) = insertOrdered q (ordered qs) := rfl
    simp [h, mem_insertOrdered, ih]

@[simp] theorem unit_top (unit name : String) : (top unit name).unit = unit := rfl

@[simp] theorem unit_child (q : QualifiedName) (segment : String) :
    (q.child segment).unit = q.unit := rfl

@[simp] theorem name_child (q : QualifiedName) (segment : String) :
    (q.child segment).name = segment := by
  simp [name, child]

/-- The written form of a nested name ends in a dot and the new segment. -/
theorem text_child (q : QualifiedName) (segment : String) :
    (q.child segment).text = q.text ++ "." ++ segment := by
  simp [text, child]

theorem top_inj {unit name unit' name' : String} :
    top unit name = top unit' name' ↔ unit = unit' ∧ name = name' := by
  simp [top]

end QualifiedName

end HotReload
