import QueryOutline.Forest
import QueryOutline.Outline.Toolbar

/-!
Nodes that were opened or closed one by one. The table belongs to the generation
it was last brought up to date with; under a toolbar of another generation it is
emptied before it is used.
-/

namespace QueryOutline

structure Overrides where
  /-- Whether the node at a path is open, at most one entry a path. -/
  entries : List (Path × Bool) := []
  generation : Option Generation := none
  deriving DecidableEq, Repr

namespace Overrides

def get? (o : Overrides) (path : Path) : Option Bool :=
  o.entries.lookup path

def insert (o : Overrides) (path : Path) (isOpen : Bool) : Overrides :=
  { o with entries := (path, isOpen) :: o.entries.filter (·.1 != path) }

def clear (o : Overrides) : Overrides :=
  { o with entries := [] }

/-- Bring the table up to date with the toolbar. -/
def reconcile (o : Overrides) (t : Toolbar) : Overrides :=
  if o.generation = some t.generation then o
  else { entries := [], generation := some t.generation }

/-- Whether a node is open, searches aside. -/
def isOpen (o : Overrides) (t : Toolbar) (path : Path) : Bool :=
  ((o.reconcile t).get? path).getD t.defaultOpen

def set (o : Overrides) (t : Toolbar) (path : Path) (isOpen : Bool) : Overrides :=
  (o.reconcile t).insert path isOpen

/-- Flip one node. Its new state is handed out with the table. -/
def flip (o : Overrides) (t : Toolbar) (path : Path) : Bool × Overrides :=
  let isOpen := !o.isOpen t path
  (isOpen, o.set t path isOpen)

def toggle (o : Overrides) (t : Toolbar) (path : Path) : Overrides :=
  (o.flip t path).2

@[simp] theorem get?_insert_self (o : Overrides) (path : Path) (b : Bool) :
    (o.insert path b).get? path = some b := by
  simp [get?, insert]

theorem get?_insert_of_ne (o : Overrides) {path other : Path} (h : other ≠ path) (b : Bool) :
    (o.insert path b).get? other = o.get? other := by
  have hb : (other == path) = false := by simpa using h
  simp only [get?, insert, List.lookup_cons, hb]
  induction o.entries with
  | nil => rfl
  | cons e es ih =>
      obtain ⟨key, isOpen⟩ := e
      by_cases hk : key = path
      · simp [hk, hb, List.lookup_cons, ih]
      · simp [hk, List.lookup_cons, ih]

theorem get?_insert (o : Overrides) (path other : Path) (b : Bool) :
    (o.insert path b).get? other = if other = path then some b else o.get? other := by
  split
  · next h => rw [h, get?_insert_self]
  · next h => exact o.get?_insert_of_ne h b

theorem reconcile_of_eq {o : Overrides} {t : Toolbar} (h : o.generation = some t.generation) :
    o.reconcile t = o :=
  if_pos h

/-- Another generation starts without overrides. -/
theorem reconcile_of_ne {o : Overrides} {t : Toolbar} (h : o.generation ≠ some t.generation) :
    o.reconcile t = { entries := [], generation := some t.generation } :=
  if_neg h

@[simp] theorem generation_reconcile (o : Overrides) (t : Toolbar) :
    (o.reconcile t).generation = some t.generation := by
  unfold reconcile
  split
  · next h => exact h
  · rfl

@[simp] theorem reconcile_reconcile (o : Overrides) (t : Toolbar) :
    (o.reconcile t).reconcile t = o.reconcile t :=
  reconcile_of_eq (o.generation_reconcile t)

@[simp] theorem reconcile_set (o : Overrides) (t : Toolbar) (path : Path) (b : Bool) :
    (o.set t path b).reconcile t = o.set t path b :=
  reconcile_of_eq (o.generation_reconcile t)

/-- The state that is returned is the new one. -/
@[simp] theorem fst_flip (o : Overrides) (t : Toolbar) (path : Path) :
    (o.flip t path).1 = !o.isOpen t path := rfl

theorem toggle_eq_set (o : Overrides) (t : Toolbar) (path : Path) :
    o.toggle t path = o.set t path !(o.isOpen t path) := rfl

theorem get?_toggle_of_ne (o : Overrides) (t : Toolbar) {path other : Path} (h : other ≠ path) :
    ((o.toggle t path).reconcile t).get? other = (o.reconcile t).get? other := by
  rw [toggle_eq_set, reconcile_set]
  exact get?_insert_of_ne _ h _

theorem isOpen_toggle_self (o : Overrides) (t : Toolbar) (path : Path) :
    (o.toggle t path).isOpen t path = !o.isOpen t path := by
  rw [isOpen, toggle_eq_set, reconcile_set, set, get?_insert_self, Option.getD_some]

/-- Toggling a path leaves all others as they are shown. -/
theorem isOpen_toggle_of_ne (o : Overrides) (t : Toolbar) {path other : Path}
    (h : other ≠ path) : (o.toggle t path).isOpen t other = o.isOpen t other := by
  rw [isOpen, isOpen, o.get?_toggle_of_ne t h]

end Overrides

end QueryOutline
