import QueryOutline.Grammar.Named

/-!
Rules that move a cursor. Here nothing is given for free: where a text is required an
absent one is a fault, and so is a round of a loop that leaves no fewer tokens than it
found, for nothing would make such a loop end. The rules read token by token what the
rules on lists describe, and that they have no faults has to be shown.
-/

namespace QueryOutline

inductive Fault where
  | textMissing
  | standstill
  deriving DecidableEq, Repr

abbrev OnCursor := StateT Cursor (Except Fault)

namespace OnCursor

variable {α σ : Type}

def exhausted : OnCursor Bool := do
  return (← get).exhausted

def peek (offset : Int := 0) : OnCursor (Option Token) := do
  return (← get).peek offset

def isAt (candidates : List Token) : OnCursor Bool := do
  return (← get).isAt candidates

def advance : OnCursor Unit :=
  modify (·.advance)

def take : OnCursor (Option Token) :=
  modifyGet Cursor.take

def skip (t : Token) : OnCursor Unit :=
  modify (·.skip t)

def required : Option String → OnCursor String
  | some s => return s
  | none => throw .textMissing

/-! Loops. -/

def rounds (step : σ → OnCursor (ForInStep σ)) (s : σ) (c : Cursor) :
    Except Fault (σ × Cursor) :=
  match (step s).run c with
  | .error fault => .error fault
  | .ok (.done s, after) => .ok (s, after)
  | .ok (.yield s, after) =>
      if after.remaining.length < c.remaining.length then rounds step s after
      else .error .standstill
termination_by c.remaining.length

def loop (step : σ → OnCursor (ForInStep σ)) (s : σ) : OnCursor σ :=
  rounds step s

/-- Items behind those that are found already, for as long as the test holds. -/
def collect (test : OnCursor Bool) (item : OnCursor (Option α)) : List α → OnCursor (List α) :=
  loop fun found => do
    if ← test then return .yield (found ++ (← item).toList) else return .done found

def isBefore (closing : List Token) : OnCursor Bool := do
  return !(← exhausted) && !(← isAt closing)

/-- Items between the current token, which opens them, and the closing one. -/
def inside (closing : Token) (item : OnCursor (Option α)) : OnCursor (List α) := do
  advance
  let found ← collect (isBefore [closing]) item []
  skip closing
  return found

def takeUntil (closing : List Token) : OnCursor (List Token) := do
  let found ← collect (isBefore closing) (some <$> take) []
  found.mapM required

def takeUnlessAt (excluded : List Token) : OnCursor (Option Token) := do
  if ← isBefore excluded then take else return none

/-! Arguments and directives. -/

def endsValue (depth : Int) (current next : Option Token) : Bool :=
  depth = 0 && (current == some ")" || next == some ":")

def valueStep : List (Option Token) × Int →
    OnCursor (ForInStep (List (Option Token) × Int))
  | (parts, depth) => do
      if ← exhausted then return .done (parts, depth)
      else
        let current ← peek
        let next ← peek 1
        let inner := depth + current.elim 0 bracketWeight
        if endsValue inner current next then return .done (parts, inner)
        else
          advance
          return .yield (parts ++ [current], inner)

def value : OnCursor String := do
  let (parts, _) ← loop valueStep ([], 0)
  let parts ← parts.mapM required
  return joinValue parts

def argument : OnCursor (Option Argument) := do
  let name ← take
  if ← isAt [":"] then
    advance
    let value ← value
    return some ⟨← required name, value⟩
  else return none

def arguments : OnCursor (List Argument) := do
  if ← isAt ["("] then inside ")" argument else return []

def directive : OnCursor Directive := do
  advance
  let name ← take
  return ⟨name.getD "", ← arguments⟩

def directives : OnCursor (List Directive) :=
  collect (isAt ["@"]) (some <$> directive) []

/-! Selections, given the rule for the selection sets below them. -/

def skipStep (depth : Int) : OnCursor (ForInStep Int) := do
  if ← exhausted then return .done depth
  else
    let current ← take
    if current = some "\x7b" then return .yield (depth + 1)
    else if current = some "\x7d" then
      if depth = 1 then return .done 0 else return .yield (depth - 1)
    else return .yield depth

def skipBlock : OnCursor Unit := do
  let _ ← loop skipStep 0

def fieldFrom (below : OnCursor (Forest Head)) (first : Option Token) : OnCursor Node := do
  let aliased ← isAt [":"]
  let name ← if aliased then do
      advance
      take
    else pure first
  let arguments ← arguments
  let directives ← directives
  let below ← below
  let head : Head :=
    { kind := .field, name := some (name.getD ""), arguments, directives
      aliasName := if aliased then first else none }
  return ⟨head, below⟩

def field (below : OnCursor (Forest Head)) : OnCursor Node := do
  fieldFrom below (← take)

def inlineFragment (below : OnCursor (Forest Head)) : OnCursor Node := do
  let typeCondition ← take
  let below ← below
  return ⟨{ kind := .inlineFragment, typeCondition := some (typeCondition.getD "") }, below⟩

def spread (below : OnCursor (Forest Head)) (attached : String) : OnCursor Node := do
  let atOn ← isAt ["on"]
  let atBlock ← isAt ["\x7b"]
  if attached = "on" then inlineFragment below
  else if attached = "" && atOn then
    advance
    inlineFragment below
  else if attached = "" && atBlock then
    return ⟨{ kind := .inlineFragment }, ← below⟩
  else
    let name ← if attached = "" then take else pure (some attached)
    return ⟨{ kind := .fragment, name := some (name.getD "") }, .nil⟩

def selection (below : OnCursor (Forest Head)) : OnCursor Node := do
  match (← peek).bind Rule.attachedWord? with
  | some attached =>
      advance
      spread below attached
  | none => field below

def selectionSet (depth : Nat) : OnCursor (Forest Head) := do
  if ← isAt ["\x7b"] then
    if maxNestingDepth ≤ depth then
      skipBlock
      return .nil
    else
      let found ← inside "\x7d" (some <$> selection (selectionSet (depth + 1)))
      return .ofList found
  else return .nil
termination_by maxNestingDepth - depth

/-! Definitions. -/

def variableDefinition : OnCursor (Option VariableDefinition) := do
  if ← isAt ["$"] then
    advance
    let name ← take
    skip ":"
    let type ← takeUntil [")", "=", "$"]
    let defaultValue ← if ← isAt ["="] then do
        advance
        take
      else pure none
    return some ⟨name.getD "", Text.trim (String.join type), defaultValue⟩
  else
    advance
    return none

def variableDefinitions : OnCursor (List VariableDefinition) := do
  if ← isAt ["("] then inside ")" variableDefinition else return []

def operation (type : OperationType) : OnCursor Node := do
  advance
  let name ← takeUnlessAt ["(", "\x7b"]
  let variableDefinitions ← variableDefinitions
  let below ← selectionSet 0
  return ⟨{ kind := .operation, operationType := some type, name, variableDefinitions }, below⟩

def fragmentDefinition : OnCursor Node := do
  let name ← take
  skip "on"
  let typeCondition ← takeUnlessAt ["\x7b"]
  let below ← selectionSet 0
  return ⟨{ kind := .fragment, name := some (name.getD ""), typeCondition }, below⟩

def definition : OnCursor (Option Node) := do
  let keyword ← peek
  if keyword = some "fragment" then
    advance
    some <$> fragmentDefinition
  else if keyword = some "\x7b" then
    return some ⟨{ kind := .operation, operationType := some .query }, ← selectionSet 0⟩
  else
    match keyword.bind OperationType.ofText? with
    | some type => some <$> operation type
    | none => return none

/-- A definition that takes no token is not one, and its place is skipped. -/
def definitionsStep : List Node × List Nat →
    OnCursor (ForInStep (List Node × List Nat))
  | (nodes, skipped) => do
      if ← exhausted then return .done (nodes, skipped)
      else
        let start ← get
        let found ← definition
        let after ← get
        match if after.position = start.position then none else found with
        | some n => return .yield (nodes ++ [n], skipped)
        | none =>
            set start.advance
            return .yield (nodes, skipped ++ [start.position])

def definitions : OnCursor Definitions := do
  let (nodes, skipped) ← loop definitionsStep ([], [])
  return ⟨.ofList nodes, skipped⟩

end OnCursor

end QueryOutline
