import QueryOutline.Outline.Viewer

/-!
Late and immediate resetting. The overrides are emptied only when something looks
at them under a toolbar of another generation. A viewer that empties them at the
gesture itself, and knows no generations at all, cannot be told apart from it: no
gesture brings back a generation that the overrides have seen.
-/

namespace QueryOutline

namespace Viewer

/-- What can be done with a viewer. Looking at a node or at the rows counts, for it
brings the overrides up to date. -/
inductive Action where
  | load (text : String)
  | gesture (gesture : Toolbar.Gesture)
  | toggle (path : Path)
  | set (path : Path) (isOpen : Bool)
  | look (path : Path)
  | reconcile
  | clear
  | rows (term : Option String)
  deriving DecidableEq, Repr

def perform (v : Viewer) : Action → Viewer
  | .load text => v.load text
  | .gesture g => v.gesture g
  | .toggle path => v.toggle path
  | .set path isOpen => v.set path isOpen
  | .look _ | .reconcile | .rows _ => v.reconcile
  | .clear => v.clear

def performAll (v : Viewer) (actions : List Action) : Viewer :=
  actions.foldl perform v

end Viewer

/-- A viewer without generations. -/
structure EagerViewer where
  document : Document
  defaultOpen : Bool
  overrides : Path → Option Bool := fun _ => none
  searchVisible : Bool
  searchTerm : String

namespace EagerViewer

def ofText (text : String) (toolbar : Toolbar) : EagerViewer :=
  { document := .parse text, defaultOpen := toolbar.defaultOpen
    searchVisible := toolbar.searchVisible, searchTerm := toolbar.searchTerm }

def isOpen (e : EagerViewer) (path : Path) : Bool :=
  (e.overrides path).getD e.defaultOpen

def set (e : EagerViewer) (path : Path) (isOpen : Bool) : EagerViewer :=
  { e with overrides := fun other => if other = path then some isOpen else e.overrides other }

def effectiveTerm (e : EagerViewer) : String :=
  if e.searchVisible then e.searchTerm else ""

/-- Both gestures on all nodes take effect at once. -/
def gesture (e : EagerViewer) : Toolbar.Gesture → EagerViewer
  | .expandAll => { e with defaultOpen := true, overrides := fun _ => none }
  | .collapseAll => { e with defaultOpen := false, overrides := fun _ => none }
  | .toggleSearch =>
      { e with searchVisible := !e.searchVisible
               searchTerm := if e.searchVisible then "" else e.searchTerm }
  | .setTerm term => { e with searchTerm := term }
  | .clearSearch => { e with searchTerm := "" }

def perform (e : EagerViewer) : Viewer.Action → EagerViewer
  | .load text => { e with document := .parse text, overrides := fun _ => none }
  | .gesture g => e.gesture g
  | .toggle path => e.set path !(e.isOpen path)
  | .set path isOpen => e.set path isOpen
  | .clear => { e with overrides := fun _ => none }
  | .look _ | .reconcile | .rows _ => e

def performAll (e : EagerViewer) (actions : List Viewer.Action) : EagerViewer :=
  actions.foldl perform e

def rows (e : EagerViewer) (term : Option String) : List Row :=
  let term := term.getD e.effectiveTerm
  Row.emit e.isOpen term [] 0 (e.document.forest.markMatches term)

end EagerViewer

/-- The viewer shows what the one without generations shows. Of the generation that
its overrides have seen only this much matters: it is not ahead of the toolbar, so
that the next gesture leaves it behind. -/
structure Viewer.Follows (v : Viewer) (e : EagerViewer) : Prop where
  document : v.document = e.document
  defaultOpen : v.toolbar.defaultOpen = e.defaultOpen
  searchVisible : v.toolbar.searchVisible = e.searchVisible
  searchTerm : v.toolbar.searchTerm = e.searchTerm
  overrides : ∀ path, (v.overrides.reconcile v.toolbar).get? path = e.overrides path
  seen : ∀ g, v.overrides.generation = some g → g.top ≤ v.toolbar.generation.top

namespace Viewer.Follows

variable {v : Viewer} {e : EagerViewer}

theorem isOpen (h : v.Follows e) (path : Path) : v.isOpen path = e.isOpen path := by
  simp only [Viewer.isOpen, Overrides.isOpen, EagerViewer.isOpen, h.overrides, h.defaultOpen]

theorem rows (h : v.Follows e) (term : Option String) : v.rows term = e.rows term := by
  have ht : v.toolbar.effectiveTerm = e.effectiveTerm := by
    simp only [Toolbar.effectiveTerm, EagerViewer.effectiveTerm, h.searchVisible, h.searchTerm]
  have ho : v.overrides.isOpen v.toolbar = e.isOpen := funext h.isOpen
  simp only [Viewer.rows, Row.ofForest, EagerViewer.rows, h.document, ht, ho]

theorem ofText (text : String) (toolbar : Toolbar) :
    (Viewer.ofText text toolbar).Follows (EagerViewer.ofText text toolbar) where
  document := rfl
  defaultOpen := rfl
  searchVisible := rfl
  searchTerm := rfl
  overrides _ := rfl
  seen _ hg := by cases hg

/-- Once the toolbar has moved ahead, nothing is left of the overrides. -/
theorem get?_reconcile_eq_none (h : v.Follows e) {t : Toolbar}
    (ht : v.toolbar.generation.top < t.generation.top) (path : Path) :
    (v.overrides.reconcile t).get? path = none := by
  have hne : v.overrides.generation ≠ some t.generation := by
    intro hg
    have hle := h.seen _ hg
    omega
  rw [Overrides.reconcile_of_ne hne]
  rfl

/-- A gesture on all nodes moves the toolbar ahead, and so it empties both tables. -/
theorem overtake (h : v.Follows e) {t : Toolbar}
    (ht : t.generation.top = v.toolbar.generation.top + 1)
    (hv : t.searchVisible = v.toolbar.searchVisible)
    (hs : t.searchTerm = v.toolbar.searchTerm) :
    ({ v with toolbar := t } : Viewer).Follows
      { e with defaultOpen := t.defaultOpen, overrides := fun _ => none } where
  document := h.document
  defaultOpen := rfl
  searchVisible := hv.trans h.searchVisible
  searchTerm := hs.trans h.searchTerm
  overrides := h.get?_reconcile_eq_none (Nat.lt_of_lt_of_eq (Nat.lt_succ_self _) ht.symm)
  seen g hg := by
    have hle := h.seen g hg
    change g.top ≤ t.generation.top
    omega

theorem gesture (h : v.Follows e) (g : Toolbar.Gesture) : (v.gesture g).Follows (e.gesture g) := by
  cases g with
  | expandAll =>
      have ho := h.overtake v.toolbar.top_apply_expandAll rfl rfl
      rwa [v.toolbar.defaultOpen_apply_expandAll] at ho
  | collapseAll =>
      have ho := h.overtake v.toolbar.top_apply_collapseAll rfl rfl
      rwa [v.toolbar.defaultOpen_apply_collapseAll] at ho
  | toggleSearch =>
      refine ⟨h.document, h.defaultOpen, ?_, ?_, h.overrides, h.seen⟩
      · simp only [Viewer.gesture, Toolbar.apply, EagerViewer.gesture, h.searchVisible]
      · simp only [Viewer.gesture, Toolbar.apply, EagerViewer.gesture, h.searchVisible,
          h.searchTerm]
  | setTerm _ | clearSearch =>
      exact ⟨h.document, h.defaultOpen, h.searchVisible, rfl, h.overrides, h.seen⟩

theorem reconcile (h : v.Follows e) : v.reconcile.Follows e where
  document := h.document
  defaultOpen := h.defaultOpen
  searchVisible := h.searchVisible
  searchTerm := h.searchTerm
  overrides path := by
    rw [Viewer.reconcile, Overrides.reconcile_reconcile]
    exact h.overrides path
  seen g hg := by
    rw [Viewer.reconcile, Overrides.generation_reconcile] at hg
    cases hg
    exact Nat.le_refl _

theorem set (h : v.Follows e) (path : Path) (isOpen : Bool) :
    (v.set path isOpen).Follows (e.set path isOpen) where
  document := h.document
  defaultOpen := h.defaultOpen
  searchVisible := h.searchVisible
  searchTerm := h.searchTerm
  overrides other := by
    rw [Viewer.set, Overrides.reconcile_set, Overrides.set, Overrides.get?_insert, h.overrides]
    rfl
  seen := h.reconcile.seen

/-- Emptied overrides keep the generation they have seen. -/
theorem clear (h : v.Follows e) : v.clear.Follows { e with overrides := fun _ => none } where
  document := h.document
  defaultOpen := h.defaultOpen
  searchVisible := h.searchVisible
  searchTerm := h.searchTerm
  overrides path := by
    unfold Overrides.reconcile
    split <;> rfl
  seen := h.seen

theorem perform (h : v.Follows e) (a : Action) : (v.perform a).Follows (e.perform a) := by
  cases a with
  | load text => exact { h.clear with document := rfl }
  | gesture g => exact h.gesture g
  | toggle path =>
      have hp : v.overrides.isOpen v.toolbar path = e.isOpen path := h.isOpen path
      have hset : v.toggle path = v.set path !(v.overrides.isOpen v.toolbar path) := rfl
      rw [Viewer.perform, hset, hp]
      exact h.set path _
  | set path isOpen => exact h.set path isOpen
  | look _ | reconcile | rows _ => exact h.reconcile
  | clear => exact h.clear

/-- The state that a toggle hands out is the opposite of the one before it. -/
theorem fst_flip (h : v.Follows e) (path : Path) : (v.flip path).1 = !e.isOpen path :=
  congrArg not (h.isOpen path)

theorem isOpen_toggle (h : v.Follows e) (path : Path) :
    (v.toggle path).isOpen path = !e.isOpen path := by
  have ht := (h.perform (.toggle path)).isOpen path
  simpa [Viewer.perform, EagerViewer.perform, EagerViewer.set, EagerViewer.isOpen] using ht

theorem performAll (h : v.Follows e) (actions : List Action) :
    (v.performAll actions).Follows (e.performAll actions) := by
  induction actions generalizing v e with
  | nil => exact h
  | cons a actions ih => exact ih (h.perform a)

end Viewer.Follows

/-- Whatever has been done, each node is open or not, a toggle returns and leaves the
state, and there are the rows, that the viewer without generations gives. -/
theorem performAll_eager (text : String) (toolbar : Toolbar) (actions : List Viewer.Action) :
    let v := (Viewer.ofText text toolbar).performAll actions
    let e := (EagerViewer.ofText text toolbar).performAll actions
    (∀ path, v.isOpen path = e.isOpen path) ∧
      (∀ path, (v.flip path).1 = !e.isOpen path ∧
        (v.toggle path).isOpen path = !e.isOpen path) ∧
      ∀ term, v.rows term = e.rows term := by
  have h := (Viewer.Follows.ofText text toolbar).performAll actions
  exact ⟨h.isOpen, fun path => ⟨h.fst_flip path, h.isOpen_toggle path⟩, h.rows⟩

end QueryOutline
