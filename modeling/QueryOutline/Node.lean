import QueryOutline.Forest

/-!
Nodes of a parsed document. A node is a tree whose root holds the node's own
attributes. Lists that a document does not give are empty, and a text that it
does not give is absent, which differs from an empty text.
-/

namespace QueryOutline

inductive Kind where
  | operation
  | field
  | fragment
  | inlineFragment
  deriving DecidableEq, Repr

namespace Kind

def all : List Kind := [operation, field, fragment, inlineFragment]

def text : Kind → String
  | operation => "operation"
  | field => "field"
  | fragment => "fragment"
  | inlineFragment => "inline-fragment"

def ofText? (s : String) : Option Kind :=
  all.find? (·.text == s)

theorem ofText?_text (k : Kind) : ofText? k.text = some k := by
  cases k <;> decide

end Kind

inductive OperationType where
  | query
  | mutation
  | subscription
  deriving DecidableEq, Repr

namespace OperationType

def all : List OperationType := [query, mutation, subscription]

def text : OperationType → String
  | query => "query"
  | mutation => "mutation"
  | subscription => "subscription"

def ofText? (s : String) : Option OperationType :=
  all.find? (·.text == s)

theorem ofText?_text (t : OperationType) : ofText? t.text = some t := by
  cases t <;> decide

end OperationType

/-- A name with its value, which is kept as text. -/
structure Argument where
  name : String
  value : String
  deriving DecidableEq, Repr

structure Directive where
  name : String
  arguments : List Argument := []
  deriving DecidableEq, Repr

structure VariableDefinition where
  name : String
  type : String
  defaultValue : Option String := none
  deriving DecidableEq, Repr

/-- The attributes of a node itself, without its children. -/
structure Head where
  kind : Kind
  name : Option String := none
  operationType : Option OperationType := none
  aliasName : Option String := none
  typeCondition : Option String := none
  arguments : List Argument := []
  directives : List Directive := []
  variableDefinitions : List VariableDefinition := []
  deriving DecidableEq, Repr

abbrev Node := Tree Head

/-- The texts of a node that a search looks at. Directives and default values are
not among them. -/
def Head.ownTexts (h : Head) : List String :=
  [h.name, h.aliasName, h.operationType.map OperationType.text, h.typeCondition].filterMap
      (·.filter (· != "")) ++
    h.arguments.flatMap (fun a => [a.name, a.value]) ++
    h.variableDefinitions.flatMap (fun v => [v.name, v.type])

end QueryOutline
