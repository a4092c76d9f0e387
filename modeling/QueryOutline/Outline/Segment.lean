import QueryOutline.Text.Search

/-!
Segments: the pieces a header is laid out from, each with the role that decides
its style. Highlighting sets the first occurrence of the search term apart.
-/

namespace QueryOutline

inductive Role where
  | keyword
  | definitionName
  | name
  | aliasName
  | type
  | variableName
  | argument
  | value
  | directive
  | punctuation
  deriving DecidableEq, Repr

namespace Role

def all : List Role :=
  [keyword, definitionName, name, aliasName, type, variableName, argument, value, directive,
    punctuation]

def text : Role → String
  | keyword => "keyword"
  | definitionName => "definition_name"
  | name => "name"
  | aliasName => "alias"
  | type => "type"
  | variableName => "variable"
  | argument => "argument"
  | value => "value"
  | directive => "directive"
  | punctuation => "punctuation"

def ofText? (s : String) : Option Role :=
  all.find? (·.text == s)

end Role

structure Segment where
  text : String
  role : Role := .punctuation
  highlighted : Bool := false
  deriving DecidableEq, Repr

namespace Segment

def part (role : Role) (cs : List Char) : List Segment :=
  if cs.isEmpty then [] else [{ text := String.ofList cs, role }]

end Segment

def highlight (text : String) (role : Role) (term : String) : List Segment :=
  match if term.isEmpty then none else Text.splitAtFirst? term.toList text.toList with
  | none => [{ text, role }]
  | some (before, after) =>
      Segment.part role before ++ { text := term, role, highlighted := true } ::
        Segment.part role after

end QueryOutline
