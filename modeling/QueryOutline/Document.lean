import QueryOutline.Diagnostic
import QueryOutline.Node.Json

/-!
Parsed documents: a text with its tokens, its forest of definitions and its
diagnostics.
-/

namespace QueryOutline

structure Document where
  text : String
  tokens : List Token
  forest : Forest Head
  diagnostics : List Diagnostic
  deriving DecidableEq, Repr

def Diagnostic.toJson (d : Diagnostic) : Json :=
  .object [("kind", .text d.kind), ("message", .text d.message),
    ("token_index", match d.position? with
      | some i => .int i
      | none => .null)]

namespace Document

def parse (text : String) : Document :=
  let tokens := tokenize text
  let found := parseDefinitions tokens
  { text, tokens, forest := found.forest
    diagnostics := Diagnostic.collect text tokens found.forest.length found.skipped }

def success (d : Document) : Bool :=
  d.diagnostics.isEmpty

def isEmpty (d : Document) : Bool :=
  d.forest.isEmpty

def toJson (d : Document) : Json :=
  .object [("success", .bool d.success), ("token_count", .int d.tokens.length),
    ("forest", .list d.forest.toJson), ("diagnostics", .list (d.diagnostics.map Diagnostic.toJson))]

end Document

end QueryOutline
