/-!
Places in the text of a settings file: what is still to be read, with the line
and the column that it begins at. Line breaks have been unified before, apart
from the three breaks that are not ASCII.
-/

namespace QueryOutline.Yaml

/-- Next line, line separator and paragraph separator count as breaks too. -/
def isBreak (c : Char) : Bool :=
  ['\n', '\u0085', '\u2028', '\u2029'].contains c

/-- The text that a break stands for inside a scalar. -/
def breakText (c : Char) : Char :=
  if c = '\u0085' then '\n' else c

def endsItem : Option Char → Bool
  | none => true
  | some c => c == ' ' || isBreak c

def endsWord : Option Char → Bool
  | none => true
  | some c => c == ' ' || c == '\t' || isBreak c

structure Place where
  rest : List Char
  /-- The number of characters of the whole text. -/
  size : Nat
  index : Nat := 0
  line : Nat := 0
  column : Nat := 0
  deriving Repr

namespace Place

def ofText (cs : List Char) : Place :=
  { rest := cs, size := cs.length }

/-- One more than the number of characters left, which bounds the steps of a loop that
takes a character in each of them. -/
def bound (p : Place) : Nat :=
  p.size + 1 - p.index

def peek (p : Place) : Option Char :=
  p.rest.head?

def isAt (p : Place) (c : Char) : Bool :=
  p.rest.head? == some c

/-- The place behind one character. A byte order mark takes no column. -/
def forward (p : Place) : Place :=
  match p.rest with
  | [] => p
  | c :: rest =>
      if isBreak c then { p with rest, index := p.index + 1, line := p.line + 1, column := 0 }
      else
        { p with rest, index := p.index + 1
                 column := if c = '\uFEFF' then p.column else p.column + 1 }

def advance : Nat → Place → Place
  | 0, p => p
  | n + 1, p => advance n p.forward

/-- The longest run of characters of a class, and the place behind it. -/
def span (q : Char → Bool) (p : Place) : List Char × Place :=
  let taken := p.rest.takeWhile q
  (taken, p.advance taken.length)

def skipBlanks (p : Place) : Place :=
  (p.span (· == ' ')).2

def takeBreak? (p : Place) : Option (Char × Place) :=
  match p.peek with
  | some c => if isBreak c then some (breakText c, p.forward) else none
  | none => none

/-- Three dashes or three dots that stand alone. -/
def isAtSeparator (p : Place) : Bool :=
  (['-', '-', '-'].isPrefixOf p.rest || ['.', '.', '.'].isPrefixOf p.rest) &&
    endsWord p.rest[3]?

/-- The place behind the rest of a line that holds nothing but a comment. -/
def skipLineEnd? (p : Place) : Option Place :=
  let p := p.skipBlanks
  let p := if p.isAt '#' then (p.span (!isBreak ·)).2 else p
  match p.takeBreak? with
  | some (_, p) => some p
  | none => if p.peek.isNone then some p else none

end Place

end QueryOutline.Yaml
