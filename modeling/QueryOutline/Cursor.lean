import QueryOutline.Token

/-!
A position over a list of tokens. Looking outside the list gives nothing, and
moving never leaves it: a cursor that was placed behind the end is brought back
to the end by its first move.
-/

namespace QueryOutline

structure Cursor where
  tokens : List Token
  position : Nat := 0
  deriving DecidableEq, Repr

namespace Cursor

def exhausted (c : Cursor) : Bool :=
  decide (c.tokens.length ≤ c.position)

/-- The token at an offset from the position, which may be negative. -/
def peek (c : Cursor) (offset : Int := 0) : Option Token :=
  match (c.position : Int) + offset with
  | .ofNat i => c.tokens[i]?
  | .negSucc _ => none

def isAt (c : Cursor) (candidates : List Token) : Bool :=
  match c.peek with
  | some t => candidates.contains t
  | none => false

def advance (c : Cursor) (count : Nat := 1) : Cursor :=
  { c with position := min (c.position + count) c.tokens.length }

def take (c : Cursor) : Option Token × Cursor :=
  (c.peek, c.advance)

def skip (c : Cursor) (t : Token) : Cursor :=
  if c.peek = some t then c.advance else c

def remaining (c : Cursor) : List Token :=
  c.tokens.drop c.position

end Cursor

end QueryOutline
