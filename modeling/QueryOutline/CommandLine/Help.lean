import QueryOutline.CommandLine.Options

/-!
The commands with their options, usage lines and help pages.
-/

namespace QueryOutline.CommandLine

inductive Command where
  | tokens
  | parse
  | show
  deriving DecidableEq, Repr

/-- A place in the command line: before the command, or behind it. -/
abbrev Scope := Option Command

namespace Command

def all : List Command := [parse, Command.show, tokens]

def name : Command → String
  | tokens => "tokens"
  | parse => "parse"
  | .show => "show"

def ofName? (s : String) : Option Command :=
  all.find? (·.name == s)

def summary : Command → String
  | tokens => "Tokenize a GraphQL document (use - for stdin)."
  | parse => "Parse a GraphQL document into operations and fragments."
  | .show => "Show a GraphQL document as an outline (use - for stdin)."

end Command

namespace Scope

def options : Scope → List Opt
  | none => [.version, .verbose, .config, .help]
  | some .tokens | some .parse => [.json, .help]
  | some .show => [.search, .collapseAll, .toggle, .tree, .help]

def program : String := "gqlens"

def path : Scope → String
  | none => program
  | some c => program ++ " " ++ c.name

def usage (s : Scope) : String :=
  "Usage: " ++ s.path ++ (match s with
    | none => " [OPTIONS] COMMAND [ARGS]..."
    | some _ => " [OPTIONS] [DOCUMENT]") ++ "\n"

def optionRow (s : Scope) : Opt → String × String
  | .version => ("--version", "Show the version and exit.")
  | .verbose => ("-v, --verbose", "Enable debug logging")
  | .config => ("-c, --config FILE", "Settings file (default: .gqlens.yaml if present)")
  | .help => ("--help", "Show this message and exit.")
  | .json => ("--json", match s with
      | some .tokens => "Output tokens as a JSON array"
      | _ => "Output the forest and diagnostics as JSON")
  | .search => ("-s, --search TEXT", "Highlight and expand matches (case-sensitive)")
  | .collapseAll => ("--collapse-all", "Collapse every node before applying toggles")
  | .toggle => ("-t, --toggle TEXT", "Toggle the node at a dotted path, e.g. 0.1 (repeatable)")
  | .tree => ("--tree", "Draw with tree guide lines instead of braces")

/-- Rows of two columns, the second one beginning two blanks behind the longest
entry of the first. -/
def table (rows : List (String × String)) : String :=
  let width := rows.foldl (fun n row => max n row.1.length) 0
  String.join (rows.map fun (left, right) =>
    "  " ++ left ++ "".pushn ' ' (width - left.length + 2) ++ right ++ "\n")

def description : Scope → String
  | none =>
      "  gqlens: Collapsible, searchable outlines of GraphQL operations.\n\n" ++
        "  Quick Start:\n" ++
        "    gqlens show query.graphql\n" ++
        "    gqlens show query.graphql --search email\n" ++
        "    cat query.graphql | gqlens parse --json\n"
  | some c => "  " ++ c.summary ++ "\n"

def help (s : Scope) : String :=
  s.usage ++ "\n" ++ s.description ++ "\nOptions:\n" ++ table (s.options.map s.optionRow) ++
    match s with
    | none => "\nCommands:\n" ++ table (Command.all.map fun c => (c.name, c.summary))
    | some _ => ""

end Scope

def versionLine : String := Scope.program ++ ", version 0.1.0"

end QueryOutline.CommandLine
