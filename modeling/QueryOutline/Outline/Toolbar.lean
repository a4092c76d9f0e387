import QueryOutline.Value.Checked

/-!
The toolbar: two generation counters and a search box. Of the counters only
their order matters to what is shown; every gesture on one of them raises it
above both, so that the latest gesture decides and no pair of counters recurs.
-/

namespace QueryOutline

/-- How often all nodes were expanded, and how often collapsed. -/
structure Generation where
  expand : Nat := 0
  collapse : Nat := 0
  deriving DecidableEq, Repr

structure Toolbar where
  generation : Generation := {}
  searchVisible : Bool := false
  searchTerm : String := ""
  deriving DecidableEq, Repr

namespace Generation

def top (g : Generation) : Nat :=
  max g.expand g.collapse

/-- Nodes without a state of their own are open unless the last gesture was to
collapse. -/
def defaultOpen (g : Generation) : Bool :=
  decide (g.collapse ≤ g.expand)

end Generation

namespace Toolbar

def defaultOpen (t : Toolbar) : Bool :=
  t.generation.defaultOpen

def effectiveTerm (t : Toolbar) : String :=
  if t.searchVisible then t.searchTerm else ""

inductive Gesture where
  | expandAll
  | collapseAll
  | toggleSearch
  | setTerm (term : String)
  | clearSearch
  deriving DecidableEq, Repr

/-- Hiding the search box clears its term. -/
def apply (t : Toolbar) : Gesture → Toolbar
  | .expandAll => { t with generation.expand := t.generation.top + 1 }
  | .collapseAll => { t with generation.collapse := t.generation.top + 1 }
  | .toggleSearch =>
      { t with searchVisible := !t.searchVisible
               searchTerm := if t.searchVisible then "" else t.searchTerm }
  | .setTerm term => { t with searchTerm := term }
  | .clearSearch => { t with searchTerm := "" }

@[simp] theorem top_apply_expandAll (t : Toolbar) :
    (t.apply .expandAll).generation.top = t.generation.top + 1 := by
  simp only [apply, Generation.top]
  omega

@[simp] theorem top_apply_collapseAll (t : Toolbar) :
    (t.apply .collapseAll).generation.top = t.generation.top + 1 := by
  simp only [apply, Generation.top]
  omega

@[simp] theorem defaultOpen_apply_expandAll (t : Toolbar) :
    (t.apply .expandAll).defaultOpen = true := by
  have h : t.generation.collapse ≤ t.generation.top + 1 := by
    simp only [Generation.top]
    omega
  exact decide_eq_true h

@[simp] theorem defaultOpen_apply_collapseAll (t : Toolbar) :
    (t.apply .collapseAll).defaultOpen = false := by
  have h : ¬ t.generation.top + 1 ≤ t.generation.expand := by
    simp only [Generation.top]
    omega
  exact decide_eq_false h

def applyAll (t : Toolbar) (gestures : List Gesture) : Toolbar :=
  gestures.foldl apply t

open Value in
def readCounter (entries : List (Value × Value)) (key : String) : Checked Nat :=
  Int.toNat <$> optional entries key 0 fun v =>
    (readInteger v).require .belowLeast fun n => decide (0 ≤ n)

open Value in
def ofEntries (e : List (Value × Value)) : Checked Toolbar :=
  (fun expand collapse => Toolbar.mk ⟨expand, collapse⟩)
    <$> readCounter e "expand_generation"
    <*> readCounter e "collapse_generation"
    <*> optional e "search_visible" false readBool
    <*> optional e "search_term" "" readText

end Toolbar

end QueryOutline
