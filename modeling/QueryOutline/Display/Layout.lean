import QueryOutline.Display.StyledText
import QueryOutline.Outline.Row
import QueryOutline.Settings

/-!
Two layouts of rows. The brace layout gives a line to every row and, after what
stands below an open row, a line with its closing brace. The tree layout hangs
every row under the last row of smaller depth.
-/

namespace QueryOutline

namespace Layout

def openMarker : String := "▾ "
def closedMarker : String := "▸ "
def leafMarker : String := "  "

def markerStyle : String := "grey50"

def blanks (n : Int) : String :=
  String.ofList (List.replicate n.toNat ' ')

/-- The column where the rows of a depth begin. -/
def margin (s : Settings) (depth : Nat) : Int :=
  depth * s.indentWidth

def segmentPiece (s : Settings) (g : Segment) : Piece :=
  let style := s.styleFor g.role.text
  { text := g.text
    style := if g.highlighted then Text.trim (style ++ " " ++ s.highlightStyle) else style }

def leader (s : Settings) (indented : Bool) (r : Row) : StyledText :=
  (if indented then [{ text := blanks (margin s r.depth) }] else []) ++
    if r.hasChildren then
      [{ text := if r.isOpen then openMarker else closedMarker, style := markerStyle }]
    else if indented then [{ text := leafMarker }]
    else []

def rowText (s : Settings) (indented : Bool) (r : Row) : StyledText :=
  leader s indented r ++ r.segments.map (segmentPiece s)

/-- The closing brace of a row of the given depth, under the header of the row. -/
def closingLine (s : Settings) (depth : Nat) : StyledText :=
  [{ text := blanks (margin s depth + leafMarker.length) },
    { text := "\x7d", style := s.styleFor Role.punctuation.text }]

/-- The lines from a row on, given the depths of the rows that are open, the
innermost first. A row closes all open ones of its own depth or a larger one. -/
def linesFrom (s : Settings) (openDepths : List Nat) : List Row → List StyledText
  | [] => openDepths.map (closingLine s)
  | r :: rs =>
      let isInner := fun depth => decide (r.depth ≤ depth)
      let outer := openDepths.dropWhile isInner
      (openDepths.takeWhile isInner).map (closingLine s) ++ rowText s true r ::
        linesFrom s (if r.hasChildren && r.isOpen then r.depth :: outer else outer) rs

def lines (s : Settings) (rows : List Row) : List StyledText :=
  linesFrom s [] rows

end Layout

/-- Add a value behind all others, under the last tree as often as the depth says
and as there are levels. -/
def Forest.addLast {α : Type} (depth : Nat) (a : α) : Forest α → Forest α
  | nil => cons a nil nil
  | cons root below nil =>
      match depth with
      | 0 => cons root below (cons a nil nil)
      | depth + 1 => cons root (below.addLast depth a) nil
  | cons root below rest => cons root below (rest.addLast depth a)

namespace Layout

def labelStyle : String := "bold"

def tree (s : Settings) (rows : List Row) : Forest StyledText :=
  rows.foldl (fun f r => f.addLast r.depth (rowText s false r)) .nil

end Layout

end QueryOutline
