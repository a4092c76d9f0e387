import QueryOutline.Grammar.ArgumentValue
import QueryOutline.Node

/-!
Selections: fields, fragment spreads and inline fragments, and the selection
sets they are nested in. Selection sets are expanded down to a number of levels;
the ones below are consumed up to their closing brace without a trace.
-/

namespace QueryOutline

/-- Selection sets are expanded to this depth. -/
def maxNestingDepth : Nat := 128

/-- What follows a block: the tokens behind the brace that brings the depth to
zero, nothing if none does. -/
def afterBlock (depth : Int) : List Token → List Token
  | [] => []
  | t :: ts =>
      if t = "\x7b" then afterBlock (depth + 1) ts
      else if t = "\x7d" then if depth = 1 then ts else afterBlock (depth - 1) ts
      else afterBlock depth ts

theorem afterBlock_suffix (depth : Int) (ts : List Token) : afterBlock depth ts <:+ ts := by
  induction ts generalizing depth with
  | nil => exact List.suffix_refl _
  | cons t ts ih =>
      simp only [afterBlock]
      split
      · exact (ih _).trans (List.suffix_cons _ _)
      · split
        · split
          · exact List.suffix_cons _ _
          · exact (ih _).trans (List.suffix_cons _ _)
        · exact (ih _).trans (List.suffix_cons _ _)

namespace Rule

/-- Step over a block, given the number of braces that are open already. -/
def skipBlock (depth : Int) : Rule Unit :=
  ⟨fun ts => ⟨(), afterBlock depth ts⟩, afterBlock_suffix depth⟩

/-- An argument begins with its name; a name without a colon is dropped. -/
def argument (name : Token) : Rule (Option Argument) := do
  if ← skip ":" then
    return some ⟨name, ← value⟩
  else return none

def arguments : Rule (List Argument) := do
  if ← skip "(" then manyUntil ")" argument else return []

def directives : Rule (List Directive) :=
  manyMarked "@" do
    let name ← take
    return ⟨name.getD "", ← arguments⟩

def selectionSet (selections : Rule (Forest Head)) : Rule (Forest Head) := do
  if ← skip "\x7b" then selections else return .nil

/-- A field whose first token has been taken: its name, or its alias if a colon
follows. -/
def field (selections : Rule (Forest Head)) (first : Option Token) : Rule Node := do
  let aliased ← skip ":"
  let name ← if aliased then take else pure first
  let arguments ← arguments
  let directives ← directives
  let below ← selectionSet selections
  let head : Head :=
    { kind := .field, name := some (name.getD ""), arguments, directives
      aliasName := if aliased then first else none }
  return ⟨head, below⟩

def inlineFragment (selections : Rule (Forest Head)) : Rule Node := do
  let typeCondition ← take
  let below ← selectionSet selections
  return ⟨{ kind := .inlineFragment, typeCondition := some (typeCondition.getD "") }, below⟩

/-- What follows three dots, when a word may be attached to them. -/
def spread (selections : Rule (Forest Head)) (attached : String) : Rule Node := do
  if attached = "on" then inlineFragment selections
  else if attached ≠ "" then
    return ⟨{ kind := .fragment, name := some attached }, .nil⟩
  else if ← skip "on" then inlineFragment selections
  else if ← isAt "\x7b" then
    let below ← selectionSet selections
    return ⟨{ kind := .inlineFragment }, below⟩
  else
    let name ← take
    return ⟨{ kind := .fragment, name := some (name.getD "") }, .nil⟩

def attachedWord? (t : Token) : Option String :=
  match t.toList with
  | '.' :: '.' :: '.' :: rest => some (String.ofList rest)
  | _ => none

/-- A selection whose first token has been taken. -/
def selection (selections : Rule (Forest Head)) (first : Token) : Rule Node :=
  match attachedWord? first with
  | some attached => spread selections attached
  | none => field selections (some first)

/-- What follows the opening brace of a selection set, closing brace included,
with the number of levels still to be expanded. -/
def selections : Nat → Rule (Forest Head)
  | 0 => do
      skipBlock 1
      return .nil
  | levels + 1 => do
      let found ← manyUntil "\x7d" fun first => some <$> selection (selections levels) first
      return .ofList found

end Rule

end QueryOutline
