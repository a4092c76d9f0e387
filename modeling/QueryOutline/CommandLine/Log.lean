import QueryOutline.CommandLine.Report
import QueryOutline.Outline.Viewer
import QueryOutline.Text.Quoted

/-!
The debug log. Every line names the part of the program that it comes from.
-/

namespace QueryOutline.CommandLine

inductive Part where
  | settings
  | input
  | parsing
  | toolbar
  | viewer
  deriving DecidableEq, Repr

def Part.name : Part → String
  | settings => "gqlens.config"
  | input => "gqlens.cli.utils"
  | parsing => "gqlens.parsing.engine"
  | toolbar => "gqlens.render.toolbar"
  | viewer => "gqlens.render.viewer"

namespace Log

def line (enabled : Bool) (p : Part) (message : String) : Action :=
  if enabled then Report.printError ("DEBUG " ++ p.name ++ ": " ++ message ++ "\n") else pure ()

def document (enabled : Bool) (d : Document) : Action := do
  for diagnostic in d.diagnostics do
    line enabled .parsing (diagnostic.kind ++ ": " ++ diagnostic.message)
  line enabled .parsing ("Parsed " ++ toString d.tokens.length ++ " tokens into " ++
    toString d.forest.length ++ " definitions")

def shownBool (b : Bool) : String :=
  if b then "True" else "False"

def shownToolbar (t : Toolbar) : String :=
  "ToolbarState(expand_generation=" ++ toString t.generation.expand ++
    ", collapse_generation=" ++ toString t.generation.collapse ++
    ", search_visible=" ++ shownBool t.searchVisible ++
    ", search_term=" ++ Text.quote t.searchTerm ++ ")"

def toolbar (enabled : Bool) (t : Toolbar) : Action :=
  line enabled .toolbar ("Toolbar state: " ++ shownToolbar t)

/-- A path in parentheses; a single index is followed by a comma. -/
def shownPath (path : Path) : String :=
  "(" ++ ", ".intercalate (path.map toString) ++ (if path.length = 1 then "," else "") ++ ")"

def toggled (enabled : Bool) (path : Path) (isOpen : Bool) : Action :=
  line enabled .viewer ("Toggled " ++ shownPath path ++ " -> " ++
    if isOpen then "open" else "closed")

end Log

end QueryOutline.CommandLine
