import QueryOutline.Display.Layout
import QueryOutline.Text.Columns
import QueryOutline.Text.Search

/-!
A plain console. Styles do not show on it, and tabs are written as blanks.
-/

namespace QueryOutline

namespace Console

/-- What is relied on wherever lines are counted: a text is printed with the line
breaks that it has, and with one more behind it. -/
def BreaksLines (print : StyledText → String) : Prop :=
  ∀ t, (print t).toList.count '\n' = t.plain.toList.count '\n' + 1

/-- A line of the outline as it is printed, which is more than one line if the
text holds line breaks. -/
def printLine (t : StyledText) : String :=
  String.ofList (Text.expandTabs 0 t.plain.toList) ++ "\n"

def printLines (ts : List StyledText) : String :=
  String.join (ts.map printLine)

/-- The text behind the first guide, the lines after its first one behind the
second guide. -/
def printLabel (first others : String) (t : StyledText) : String :=
  let lines := (Text.splitAtEach '\n' (Text.expandTabs 0 t.plain.toList)).map String.ofList
  String.join ((lines.take 1).map (first ++ · ++ "\n") ++
    (lines.drop 1).map (others ++ · ++ "\n"))

def branchGuide : String := "├── "
def lastGuide : String := "└── "
def passingGuide : String := "│   "
def emptyGuide : String := "    "

/-- Trees under a common guide. The last one gets the guide that ends there. -/
def printForest (guide : String) : Forest StyledText → String
  | .nil => ""
  | .cons t below rest =>
      let isLast := rest.isEmpty
      let inner := guide ++ if isLast then emptyGuide else passingGuide
      printLabel (guide ++ if isLast then lastGuide else branchGuide) inner t ++
        printForest inner below ++ printForest guide rest

def printTree (label : String) (f : Forest StyledText) : String :=
  printLabel "" "" [{ text := label, style := Layout.labelStyle }] ++ printForest "" f

def defaultLabel : String := "GraphQL Query"

def printOutline (s : Settings) (asTree : Bool) (label : String) (rows : List Row) : String :=
  if asTree then printTree label (Layout.tree s rows) else printLines (Layout.lines s rows)

end Console

end QueryOutline
