import QueryOutline.Document
import QueryOutline.Outline.Row

/-!
The viewer: one document with its toolbar and the nodes opened or closed by hand.
-/

namespace QueryOutline

structure Viewer where
  document : Document
  toolbar : Toolbar := {}
  overrides : Overrides := {}
  deriving DecidableEq, Repr

namespace Viewer

def ofText (text : String) (toolbar : Toolbar := {}) : Viewer :=
  { document := .parse text, toolbar }

/-- Show another text. What was opened or closed by hand is forgotten. -/
def load (v : Viewer) (text : String) : Viewer :=
  { v with document := .parse text, overrides := v.overrides.clear }

def gesture (v : Viewer) (g : Toolbar.Gesture) : Viewer :=
  { v with toolbar := v.toolbar.apply g }

def isOpen (v : Viewer) (path : Path) : Bool :=
  v.overrides.isOpen v.toolbar path

/-- Flip one node and hand out its new state. -/
def flip (v : Viewer) (path : Path) : Bool × Viewer :=
  (v.overrides.flip v.toolbar path).map id fun overrides => { v with overrides }

def toggle (v : Viewer) (path : Path) : Viewer :=
  (v.flip path).2

def set (v : Viewer) (path : Path) (isOpen : Bool) : Viewer :=
  { v with overrides := v.overrides.set v.toolbar path isOpen }

/-- Bring the overrides up to date with the toolbar, as every look at them does. -/
def reconcile (v : Viewer) : Viewer :=
  { v with overrides := v.overrides.reconcile v.toolbar }

def clear (v : Viewer) : Viewer :=
  { v with overrides := v.overrides.clear }

def rows (v : Viewer) (term : Option String := none) : List Row :=
  Row.ofForest v.document.forest v.toolbar v.overrides term

end Viewer

end QueryOutline
