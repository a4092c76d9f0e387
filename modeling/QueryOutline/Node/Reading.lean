import QueryOutline.Node
import QueryOutline.Value.Checked

/-!
Nodes from data. Attributes that are null or missing are absent, unknown ones
are ignored, and an empty list counts as none.
-/

namespace QueryOutline

open Value

def Argument.ofEntries (e : List (Value × Value)) : Checked Argument :=
  Argument.mk <$> required e "name" readText <*> required e "value" readText

/-- The value as an object, whose entries are read further. -/
def Value.readObject {α : Type} (read : List (Value × Value) → Checked α) :
    Value → Checked α
  | mapping entries => read entries
  | _ => .defect .notObject

def Directive.ofEntries (e : List (Value × Value)) : Checked Directive :=
  Directive.mk <$> required e "name" readText
    <*> nullable e "arguments" [] (readList (readObject Argument.ofEntries))

def VariableDefinition.ofEntries (e : List (Value × Value)) : Checked VariableDefinition :=
  VariableDefinition.mk <$> required e "name" readText <*> required e "type" readText
    <*> nullable e "default_value" none (some <$> readText ·)

def Head.ofEntries (e : List (Value × Value)) : Checked Head :=
  Head.mk <$> required e "kind" (readMember Kind.ofText?)
    <*> nullable e "name" none (some <$> readText ·)
    <*> nullable e "operation_type" none (some <$> readMember OperationType.ofText? ·)
    <*> nullable e "alias" none (some <$> readText ·)
    <*> nullable e "type_condition" none (some <$> readText ·)
    <*> nullable e "arguments" [] (readList (readObject Argument.ofEntries))
    <*> nullable e "directives" [] (readList (readObject Directive.ofEntries))
    <*> nullable e "variable_definitions" [] (readList (readObject VariableDefinition.ofEntries))

namespace Node

mutual

def ofValue : Value → Checked Node
  | mapping entries =>
      Tree.mk <$> Head.ofEntries entries <*> ((childrenOf entries).getD (.ok .nil))
  | _ => .defect .notObject

def childrenOf : List (Value × Value) → Option (Checked (Forest Head))
  | [] => none
  | e :: es => if e.1.isText "children" then some (childrenEntry e) else childrenOf es

def childrenEntry : Value × Value → Checked (Forest Head)
  | (_, v) => Checked.within (.key "children") (childrenValue v)

def childrenValue : Value → Checked (Forest Head)
  | null => .ok .nil
  | list items => forestOfItems 0 items
  | _ => .defect .notList

def forestOfItems (index : Nat) : List Value → Checked (Forest Head)
  | [] => .ok .nil
  | v :: vs =>
      (fun t rest => .cons t.root t.below rest) <$> Checked.within (.number index) (ofValue v)
        <*> forestOfItems (index + 1) vs

end

def ofEntries (entries : List (Value × Value)) : Checked Node :=
  ofValue (.mapping entries)

end Node

end QueryOutline
