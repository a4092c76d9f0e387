import QueryOutline.Grammar.Definition

/-!
Nodes in two parts. What is read of a node first is its head, and that does not depend on
how deep selection sets are expanded; behind the head of all but spreads a selection set is
looked for. Selections and definitions are put together from these two parts, and only a
bare query has no head.
-/

namespace QueryOutline

namespace Rule

variable {α : Type} {selections : Rule (Forest Head)}

/-- Rules that read alike are the same. -/
theorem ext_read {r s : Rule α} (h : ∀ ts, r.read ts = s.read ts) : r = s := by
  obtain ⟨read, _⟩ := r
  obtain ⟨read', _⟩ := s
  obtain rfl : read = read' := funext h
  rfl

/-! Selections. -/

def fieldHead (first : Option Token) : Rule Head := do
  let aliased ← skip ":"
  let name ← if aliased then take else pure first
  let arguments ← arguments
  let directives ← directives
  return { kind := .field, name := some (name.getD ""), arguments, directives
           aliasName := if aliased then first else none }

def inlineFragmentHead : Rule Head := do
  let typeCondition ← take
  return { kind := .inlineFragment, typeCondition := some (typeCondition.getD "") }

/-- A head, and whether a selection set is looked for behind it. -/
def spreadHead (attached : String) : Rule (Head × Bool) := do
  if attached = "on" then (·, true) <$> inlineFragmentHead
  else if attached ≠ "" then return ({ kind := .fragment, name := some attached }, false)
  else if ← skip "on" then (·, true) <$> inlineFragmentHead
  else if ← isAt "\x7b" then return ({ kind := .inlineFragment }, true)
  else
    let name ← take
    return ({ kind := .fragment, name := some (name.getD "") }, false)

def selectionHead (first : Token) : Rule (Head × Bool) :=
  match attachedWord? first with
  | some attached => spreadHead attached
  | none => (·, true) <$> fieldHead (some first)

/-- The node of a head, with the selection set that is looked for behind it. -/
def withBelow (selections : Rule (Forest Head)) (head : Rule (Head × Bool)) : Rule Node := do
  let (root, asks) ← head
  let below ← if asks then selectionSet selections else pure .nil
  return ⟨root, below⟩

theorem rest_withBelow (head : Rule (Head × Bool)) (ts : List Token) :
    ((withBelow selections head).read ts).rest =
      if (head.read ts).result.2 then ((selectionSet selections).read (head.read ts).rest).rest
      else (head.read ts).rest := by
  rw [withBelow, read_bind]
  obtain ⟨root, asks⟩ := (head.read ts).result
  cases asks <;> rfl

theorem field_eq (first : Option Token) :
    field selections first = withBelow selections ((·, true) <$> fieldHead first) := by
  refine ext_read fun ts => ?_
  simp only [field, fieldHead, withBelow, read_bind, read_map]
  cases ((skip ":").read ts).result <;> rfl

theorem inlineFragment_eq :
    inlineFragment selections = withBelow selections ((·, true) <$> inlineFragmentHead) :=
  ext_read fun _ => rfl

theorem spread_eq (attached : String) :
    spread selections attached = withBelow selections (spreadHead attached) := by
  unfold spread spreadHead
  rw [inlineFragment_eq]
  split
  · rfl
  · split
    · rfl
    -- three dots alone: what they are depends on the tokens behind them
    · refine ext_read fun ts => ?_
      simp only [withBelow, read_bind]
      cases ((skip "on").read ts).result with
      | true => rfl
      | false =>
          simp only [Bool.false_eq_true, if_false, read_bind]
          cases ((isAt "\x7b").read ((skip "on").read ts).rest).result <;> rfl

theorem selection_eq (first : Token) :
    selection selections first = withBelow selections (selectionHead first) := by
  unfold selection selectionHead
  cases attachedWord? first with
  | none => exact field_eq (some first)
  | some attached => exact spread_eq attached

/-! Definitions. -/

def operationHead (type : OperationType) : Rule Head := do
  let name ← takeUnless ["(", "\x7b"]
  let variableDefinitions ← variableDefinitions
  return { kind := .operation, operationType := some type, name, variableDefinitions }

def fragmentDefinitionHead : Rule Head := do
  let name ← take
  let _ ← skip "on"
  let typeCondition ← takeUnless ["\x7b"]
  return { kind := .fragment, name := some (name.getD ""), typeCondition }

def definitionHead? (first : Token) : Option (Rule Head) :=
  if first = "fragment" then some fragmentDefinitionHead
  else (OperationType.ofText? first).map operationHead

/-- Behind the head of every definition a selection set is looked for. -/
def definitionOf (head : Rule Head) : Rule Node :=
  withBelow (Rule.selections maxNestingDepth) ((·, true) <$> head)

theorem definition?_of_ne {first : Token} (h : first ≠ "\x7b") :
    definition? first = (definitionHead? first).map definitionOf := by
  rw [definition?, definitionHead?, if_neg h]
  split
  · rfl
  · rw [Option.map_map]
    rfl

end Rule

end QueryOutline
