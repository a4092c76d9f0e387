import QueryOutline.Grammar.Definition
import QueryOutline.Cursor

/-!
The rules of the grammar by name, run on a cursor. A cursor inside its tokens
moves by as many tokens as the rule reads. A cursor behind the end stays where
it is, unless the rule takes a token without looking at it.
-/

namespace QueryOutline

namespace Rule

def selectionHere (selections : Rule (Forest Head)) : Rule Node := do
  match ← take with
  | some first => selection selections first
  | none => field selections none

def fieldHere (selections : Rule (Forest Head)) : Rule Node := do
  field selections (← take)

def braced (levels : Nat) : Rule (Forest Head) :=
  selectionSet (selections levels)

/-- Step over a block of which no brace has been read. -/
def wholeBlock : Rule Unit := skipBlock 0

/-- A spread takes a token without looking at it when `on` is attached to its
dots. -/
def spreadTakesBlindly (attached : String) : Bool :=
  attached == "on" || attached == ""

/-- The levels that are still to be expanded below a depth. -/
def levelsBelow (depth : Nat) : Nat :=
  maxNestingDepth - (depth + 1)

end Rule

namespace Cursor

variable {α : Type}

def run (c : Cursor) (rule : Rule α) (takesBlindly : Bool) : α × Cursor :=
  let found := rule.read c.remaining
  let position :=
    if c.position ≤ c.tokens.length || takesBlindly then
      c.tokens.length - found.rest.length
    else c.position
  (found.result, { c with position })

end Cursor

end QueryOutline
