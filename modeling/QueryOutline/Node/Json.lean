import QueryOutline.Json
import QueryOutline.Node

/-!
Nodes as JSON documents. Absent texts and empty lists are left out at every
level, so a written node holds no null and no empty list.
-/

namespace QueryOutline

/-- A list member, left out when the list is empty. -/
def Json.listMember (key : String) (items : List Json) : List (String × Json) :=
  if items.isEmpty then [] else [(key, .list items)]

def Json.textMember (key : String) (s : Option String) : List (String × Json) :=
  match s with
  | some s => [(key, .text s)]
  | none => []

def Argument.toJson (a : Argument) : Json :=
  .object [("name", .text a.name), ("value", .text a.value)]

def Directive.toJson (d : Directive) : Json :=
  .object (("name", .text d.name) :: Json.listMember "arguments" (d.arguments.map Argument.toJson))

def VariableDefinition.toJson (v : VariableDefinition) : Json :=
  .object (("name", .text v.name) :: ("type", .text v.type) ::
    Json.textMember "default_value" v.defaultValue)

def Head.members (h : Head) : List (String × Json) :=
  ("kind", .text h.kind.text) ::
    (Json.textMember "name" h.name ++
      Json.textMember "operation_type" (h.operationType.map OperationType.text) ++
      Json.textMember "alias" h.aliasName ++
      Json.textMember "type_condition" h.typeCondition ++
      Json.listMember "arguments" (h.arguments.map Argument.toJson) ++
      Json.listMember "directives" (h.directives.map Directive.toJson) ++
      Json.listMember "variable_definitions" (h.variableDefinitions.map VariableDefinition.toJson))

namespace Forest

def toJson : Forest Head → List Json
  | nil => []
  | cons head below rest =>
      .object (head.members ++ Json.listMember "children" below.toJson) :: rest.toJson

end Forest

def Node.toJson (n : Node) : Json :=
  .object (n.root.members ++ Json.listMember "children" n.below.toJson)

end QueryOutline
