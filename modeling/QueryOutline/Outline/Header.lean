import QueryOutline.Node
import QueryOutline.Outline.Segment

/-!
Headers. The header of a node spells out its own attributes from left to right
and ends in the brace of its selections, open or folded.
-/

namespace QueryOutline

namespace Header

open Segment

def mark (text : String) : Segment := { text }

def blank : Segment := mark " "

def parenthesized (entries : List (List Segment)) : List Segment :=
  if entries.isEmpty then []
  else mark "(" :: ((entries.intersperse [mark ", "]).flatten ++ [mark ")"])

def variableDefinition (term : String) (v : VariableDefinition) : List Segment :=
  { text := "$", role := .variableName } :: highlight v.name .variableName term ++
    mark ": " :: highlight v.type .type term ++
    match v.defaultValue with
    | some d => [mark " = ", { text := d, role := .value }]
    | none => []

def argument (term : String) (a : Argument) : List Segment :=
  highlight a.name .argument term ++ mark ": " :: highlight a.value .value term

/-- Nothing is highlighted inside directives. -/
def directive (d : Directive) : List Segment :=
  blank :: { text := "@" ++ d.name, role := .directive } ::
    parenthesized (d.arguments.map fun a =>
      [{ text := a.name, role := .argument }, mark ": ", { text := a.value, role := .value }])

def typeCondition (term : String) : Option String → List Segment
  | some type => [blank, { text := "on", role := .keyword }, blank] ++ highlight type .type term
  | none => []

/-- What identifies the node. A fragment is spelled as a definition at the top of
the document and as a spread elsewhere. -/
def title (h : Head) (isDefinition : Bool) (term : String) : List Segment :=
  match h.kind with
  | .operation =>
      highlight ((h.operationType.map OperationType.text).getD "") .keyword term ++
        match h.name with
        | some name => blank :: highlight name .definitionName term
        | none => []
  | .fragment =>
      if isDefinition then
        { text := "fragment", role := .keyword } :: blank ::
          highlight (h.name.getD "") .definitionName term ++ typeCondition term h.typeCondition
      else mark "..." :: highlight (h.name.getD "") .name term
  | .inlineFragment => mark "..." :: typeCondition term h.typeCondition
  | .field =>
      (match h.aliasName with
        | some a => highlight a .aliasName term ++ [mark ": "]
        | none => []) ++
      highlight (h.name.getD "") .name term

def brace (hasChildren isOpen : Bool) : List Segment :=
  if hasChildren then [blank, mark (if isOpen then "\x7b" else "\x7b ... \x7d")] else []

end Header

open Header in
def Head.header (h : Head) (isDefinition hasChildren isOpen : Bool) (term : String) :
    List Segment :=
  title h isDefinition term ++
    parenthesized (h.variableDefinitions.map (Header.variableDefinition term)) ++
    parenthesized (h.arguments.map (Header.argument term)) ++
    h.directives.flatMap Header.directive ++
    brace hasChildren isOpen

end QueryOutline
