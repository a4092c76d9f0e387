/-!
Ordered forests. A forest is empty, or it is its first tree, given by a root and
the forest below the root, followed by the rest of the forest. One induction on
this form covers depth and order at once.
-/

namespace QueryOutline

inductive Forest (α : Type) where
  | nil
  | cons (root : α) (below rest : Forest α)
  deriving DecidableEq, Repr

/-- A single tree. -/
structure Tree (α : Type) where
  root : α
  below : Forest α
  deriving DecidableEq, Repr

/-- The way to a node: the index of its tree, then the index among the children
at each level. -/
abbrev Path := List Nat

namespace Forest

variable {α β : Type}

def isEmpty : Forest α → Bool
  | nil => true
  | cons .. => false

def length : Forest α → Nat
  | nil => 0
  | cons _ _ rest => rest.length + 1

def toList : Forest α → List (Tree α)
  | nil => []
  | cons root below rest => ⟨root, below⟩ :: rest.toList

def ofList : List (Tree α) → Forest α
  | [] => nil
  | t :: ts => cons t.root t.below (ofList ts)

/-- All values, each before those below it. -/
def preorder : Forest α → List α
  | nil => []
  | cons root below rest => root :: (below.preorder ++ rest.preorder)

def at? : Forest α → Path → Option (Tree α)
  | nil, _ => none
  | cons .., [] => none
  | cons root below _, 0 :: path =>
      if path.isEmpty then some ⟨root, below⟩ else below.at? path
  | cons _ _ rest, (i + 1) :: path => rest.at? (i :: path)

theorem ofList_toList (f : Forest α) : ofList f.toList = f := by
  induction f with
  | nil => rfl
  | cons _ _ _ _ ih => simp [ofList, toList, ih]

end Forest

namespace Tree

variable {α : Type}

def preorder (t : Tree α) : List α :=
  t.root :: t.below.preorder

def hasChildren (t : Tree α) : Bool :=
  !t.below.isEmpty

end Tree

end QueryOutline
