import QueryOutline.Outline.Header
import QueryOutline.Outline.Match
import QueryOutline.Outline.Overrides

/-!
Rows: the visible nodes of a forest in the order of the document. A node below
another one is visible when all nodes above it are open. What matches a search
is open in any case; otherwise the overrides decide, and after them the toolbar.
-/

namespace QueryOutline

structure Row where
  path : Path := []
  depth : Nat
  segments : List Segment
  hasChildren : Bool
  isOpen : Bool
  isMatch : Bool := false
  deriving DecidableEq, Repr

namespace Row

def text (r : Row) : String :=
  String.join (r.segments.map (·.text))

def highlights (r : Row) : List String :=
  (r.segments.filter (·.highlighted)).map (·.text)

def emit (openAt : Path → Bool) (term : String) (above : Path) (index : Nat) :
    Forest (Head × Bool) → List Row
  | .nil => []
  | .cons (head, isMatch) below rest =>
      let path := above ++ [index]
      let hasChildren := !below.isEmpty
      let isOpen := hasChildren && (isMatch || openAt path)
      { path, hasChildren, isOpen, isMatch
        depth := above.length
        segments := head.header above.isEmpty hasChildren isOpen term } ::
        ((if isOpen then emit openAt term path 0 below else []) ++
          emit openAt term above (index + 1) rest)

/-- The rows of a document. A term that is given replaces the one of the toolbar. -/
def ofForest (f : Forest Head) (t : Toolbar) (o : Overrides) (term : Option String) : List Row :=
  let term := term.getD t.effectiveTerm
  emit (o.isOpen t) term [] 0 (f.markMatches term)

end Row

end QueryOutline
