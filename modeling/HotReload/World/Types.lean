import HotReload.World.Liveness

/-!
# Types

A type has an ordered list of direct ancestors and a table of members, and it knows the types that
list it as an ancestor. `World.setAncestors` keeps the two sides in step; `World.subtypes` reads the
back-list and passes over types that have died.

* `World.resolve?` finds a member: depth first, left to right, the first declaration wins, and a
  type that several paths lead to is visited once;
* `World.isSubtype` follows the ancestors without remembering where it has been. Its bound is one
  more than the number of types, which no chain of ancestors without a repetition exceeds.
-/

namespace HotReload.World

variable {σ : Type}

/-! ### Names -/

/-- The qualified name of a callable. -/
def callableName (w : World σ) (c : CallableId) : QualifiedName :=
  .top (w.callable c).owner (w.callable c).name

/-- The qualified name of a type. -/
def typeName (w : World σ) (t : TypeId) : QualifiedName := .top (w.type t).owner (w.type t).name

/-- The qualified name of a definition. -/
def nameOf (w : World σ) : Definition → QualifiedName
  | .callable c => w.callableName c
  | .type t => w.typeName t

/-- The name of the unit that owns a definition. -/
def ownerOf (w : World σ) (d : Definition) : String := (w.nameOf d).unit

/-- The qualified name of a member of a type. -/
def memberName (w : World σ) (t : TypeId) (member : String) : QualifiedName :=
  (w.typeName t).child member

/-- The name of the type of an object. -/
def objectName (w : World σ) (o : ObjectId) : QualifiedName := w.typeName (w.object o).type

/-! ### Ancestors and subtypes -/

/-- The direct ancestors of a type, in declaration order. -/
def ancestors (w : World σ) (t : TypeId) : List TypeId := (w.type t).ancestors

/-- The living types that list `t` as a direct ancestor. -/
def subtypes [Host σ] (w : World σ) (t : TypeId) : List TypeId :=
  let living := w.living
  (w.type t).subtypes.filter fun s => living.contains (.type s)

/-- Enters `s` into the back-list of `t`, once. -/
def addSubtype (w : World σ) (t s : TypeId) : World σ :=
  if (w.type t).subtypes.contains s then w
  else w.putType t { w.type t with subtypes := (w.type t).subtypes ++ [s] }

/-- Removes `s` from the back-list of `t`. -/
def dropSubtype (w : World σ) (t s : TypeId) : World σ :=
  w.putType t { w.type t with subtypes := (w.type t).subtypes.filter (· ≠ s) }

/-- **New ancestors.** Ancestors that were dropped forget the type, ancestors that were added learn
about it. -/
def setAncestors (w : World σ) (s : TypeId) (new : List TypeId) : World σ :=
  let old := w.ancestors s
  let w := w.putType s { w.type s with ancestors := new }
  -- an ancestor in both lists keeps its place in the back-list
  let w := (old.filter (!new.contains ·)).foldl (fun w t => w.dropSubtype t s) w
  (new.filter (!old.contains ·)).foldl (fun w t => w.addSubtype t s) w

/-- A new type, entered with its ancestors. -/
def declareType (w : World σ) (cell : TypeDecl) (ancestors : List TypeId) : TypeId × World σ :=
  let (t, w) := w.newType { cell with ancestors := [], subtypes := [] }
  (t, w.setAncestors t ancestors)

/-! ### Members -/

/-- The member that a type itself declares. -/
def ownMember? (w : World σ) (t : TypeId) (name : String) : Option Member :=
  (w.type t).members.get? name

/-- Declares a member, or replaces it in place. -/
def setMember (w : World σ) (t : TypeId) (name : String) (m : Member) : World σ :=
  w.putType t { w.type t with members := (w.type t).members.insert name m }

/-- The member of a name that a type has, its own or an inherited one. -/
def resolve? (w : World σ) (t : TypeId) (name : String) : Option Member :=
  DepthFirst.first? w.ancestors (·.index < w.types.size) (w.ownMember? · name) w.types.size .empty [t]

/-! ### Subtyping -/

/-- True if a chain of at most `bound` ancestor steps leads from `s` to `t`. -/
def derives (w : World σ) (t : TypeId) : Nat → TypeId → Bool
  | 0, s => s == t
  -- no record of what was visited: on a cycle it is the bound that ends it
  | bound + 1, s => s == t || (w.ancestors s).any (w.derives t bound)

/-- True if `s` is `t` or one of its ancestors is a subtype of `t`. -/
def isSubtype (w : World σ) (s t : TypeId) : Bool := w.derives t (w.types.size + 1) s

/-! ### Small laws -/

@[simp] theorem nameOf_callable (w : World σ) (c : CallableId) :
    w.nameOf (.callable c) = w.callableName c := rfl

@[simp] theorem nameOf_type (w : World σ) (t : TypeId) : w.nameOf (.type t) = w.typeName t := rfl

@[simp] theorem ownerOf_callable (w : World σ) (c : CallableId) :
    w.ownerOf (.callable c) = (w.callable c).owner := rfl

@[simp] theorem ownerOf_type (w : World σ) (t : TypeId) :
    w.ownerOf (.type t) = (w.type t).owner := rfl

/-- Every type is a subtype of itself. -/
@[simp] theorem isSubtype_self (w : World σ) (t : TypeId) : w.isSubtype t t = true := by
  simp [isSubtype, derives]

end HotReload.World
