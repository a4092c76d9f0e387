import QueryOutline.Grammar.Selection

/-!
Definitions and whole documents. A definition begins with an operation keyword,
with `fragment`, or with an opening brace; a token that begins none is skipped.
-/

namespace QueryOutline

namespace Rule

def endsVariableType (t : Token) : Bool :=
  [")", "=", "$"].contains t

/-- A variable definition begins with a dollar sign; any other token is dropped. -/
def variableDefinition (first : Token) : Rule (Option VariableDefinition) := do
  if first ≠ "$" then return none
  else
    let name ← take
    let _ ← skip ":"
    let type ← takeUntil endsVariableType
    let defaultValue ← if ← skip "=" then take else pure none
    return some ⟨name.getD "", Text.trim (String.join type), defaultValue⟩

def variableDefinitions : Rule (List VariableDefinition) := do
  if ← skip "(" then manyUntil ")" variableDefinition else return []

def takeUnless (excluded : List Token) : Rule (Option Token) := do
  match ← peek with
  | some t => if excluded.contains t then return none else take
  | none => return none

theorem read_takeUnless_of_notMem {excluded : List Token} {t : Token} (h : t ∉ excluded)
    (ts : List Token) : (takeUnless excluded).read (t :: ts) = ⟨some t, ts⟩ := by
  simp [takeUnless, h]

theorem read_takeUnless_of_mem {excluded : List Token} {t : Token} (h : t ∈ excluded)
    (ts : List Token) : (takeUnless excluded).read (t :: ts) = ⟨none, t :: ts⟩ := by
  simp [takeUnless, h]

def operation (type : OperationType) : Rule Node := do
  let name ← takeUnless ["(", "\x7b"]
  let variableDefinitions ← variableDefinitions
  let below ← selectionSet (selections maxNestingDepth)
  return ⟨{ kind := .operation, operationType := some type, name, variableDefinitions }, below⟩

/-- A bare block of selections, behind its brace, is a query. -/
def bareQuery : Rule Node := do
  let below ← selections maxNestingDepth
  return ⟨{ kind := .operation, operationType := some .query }, below⟩

def fragmentDefinition : Rule Node := do
  let name ← take
  let _ ← skip "on"
  let typeCondition ← takeUnless ["\x7b"]
  let below ← selectionSet (selections maxNestingDepth)
  return ⟨{ kind := .fragment, name := some (name.getD ""), typeCondition }, below⟩

def definition? (first : Token) : Option (Rule Node) :=
  if first = "fragment" then some fragmentDefinition
  else if first = "\x7b" then some bareQuery
  else (OperationType.ofText? first).map operation

def definition : Rule (Option Node) := do
  match ← peek with
  | none => return none
  | some first =>
      match definition? first with
      | none => return none
      | some rule =>
          let _ ← take
          some <$> rule

theorem read_definition_of_none {t : Token} (h : definition? t = none) (ts : List Token) :
    definition.read (t :: ts) = ⟨none, t :: ts⟩ := by
  simp [definition, h]

theorem read_definition_of_some {t : Token} {rule : Rule Node} (h : definition? t = some rule)
    (ts : List Token) :
    definition.read (t :: ts) = ⟨some (rule.read ts).result, (rule.read ts).rest⟩ := by
  simp [definition, h]

end Rule

/-- The definitions of a document, and the positions of the tokens that belong
to none. -/
structure Definitions where
  forest : Forest Head := .nil
  skipped : List Nat := []
  deriving DecidableEq, Repr

namespace Definitions

/-- Read definitions from tokens of which the first has the given position. -/
def readFrom (position : Nat) : List Token → Definitions
  | [] => {}
  | t :: ts =>
      match Rule.definition? t with
      | none =>
          let others := readFrom (position + 1) ts
          { others with skipped := position :: others.skipped }
      | some rule =>
          let found := rule.read ts
          let others := readFrom (position + 1 + (ts.length - found.rest.length)) found.rest
          { others with forest := .cons found.result.root found.result.below others.forest }
termination_by ts => ts.length
decreasing_by
  · exact Nat.lt_succ_self _
  · exact Nat.lt_succ_of_le (rule.length_rest_le ts)

/-- A token that begins no definition is skipped by itself. -/
theorem readFrom_cons_of_none {t : Token} (h : Rule.definition? t = none) (position : Nat)
    (ts : List Token) :
    readFrom position (t :: ts) =
      { readFrom (position + 1) ts with
        skipped := position :: (readFrom (position + 1) ts).skipped } := by
  rw [readFrom, h]

theorem readFrom_cons_of_some {t : Token} {rule : Rule Node} {ts rest : List Token} {n : Node}
    (h : Rule.definition? t = some rule) (hr : rule.read ts = ⟨n, rest⟩) (position : Nat) :
    readFrom position (t :: ts) =
      { readFrom (position + 1 + (ts.length - rest.length)) rest with
        forest := .cons n.root n.below
          (readFrom (position + 1 + (ts.length - rest.length)) rest).forest } := by
  rw [readFrom, h]
  simp [hr]

/-- The position of the first token only shifts what is skipped. -/
theorem readFrom_add (position count : Nat) (ts : List Token) :
    readFrom (position + count) ts =
      { readFrom position ts with
        skipped := (readFrom position ts).skipped.map (· + count) } := by
  fun_induction readFrom position ts with
  | case1 position => simp [readFrom]
  | case2 position t ts h others ih =>
      rw [readFrom_cons_of_none h, Nat.add_right_comm, ih]
      rfl
  | case3 position t ts rule h found others ih =>
      rw [readFrom_cons_of_some h rfl, Nat.add_right_comm position count 1,
        Nat.add_right_comm (position + 1) count, ih]

end Definitions

def parseDefinitions (ts : List Token) : Definitions :=
  Definitions.readFrom 0 ts

end QueryOutline
