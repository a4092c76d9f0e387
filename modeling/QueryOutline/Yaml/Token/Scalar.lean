import QueryOutline.Yaml.Fault
import QueryOutline.Yaml.Place

/-!
The texts of scalars: plain, quoted, and in indented blocks. Each reader takes
the place where the scalar begins and gives its text and the place behind it, or
what is wrong with it; where nothing is given, the text is not well formed.

Loops over several lines carry a bound on their steps, which is the number of
characters left and is never reached.
-/

namespace QueryOutline.Yaml

namespace Scalar

/-- Plain text up to a blank, to a colon that ends a key, or to an indicator of
the flow style. -/
def plainRun (inFlow : Bool) : List Char → List Char
  | [] => []
  | c :: cs =>
      if endsWord (some c) ||
          (c == ':' && (endsWord cs.head? ||
            (inFlow && cs.head?.any [',', '[', ']', '\x7b', '\x7d'].contains))) ||
          (inFlow && [',', '?', '[', ']', '\x7b', '\x7d'].contains c) then []
      else c :: plainRun inFlow cs

/-- Blank lines and indentation in plain text. Nothing is given at a separator. -/
def plainBreaks : Nat → Place → Option (List Char) × Place
  | 0, p => (some [], p)
  | steps + 1, p =>
      if p.isAt ' ' then plainBreaks steps p.forward
      else match p.takeBreak? with
        | none => (some [], p)
        | some (c, p) =>
            if p.isAtSeparator then (none, p)
            else
              let (breaks, p) := plainBreaks steps p
              (breaks.map (c :: ·), p)

/-- A single break is folded into a blank, and of several all but the first stay. -/
def fold (first : Char) (breaks : List Char) : List Char :=
  if first ≠ '\n' then first :: breaks
  else if breaks.isEmpty then [' ']
  else breaks

/-- What stands between two runs of plain text, and whether a line ends in it. It
is empty where the text cannot go on. -/
def plainGap (p : Place) : List Char × Bool × Place :=
  let (blanks, p) := p.span (· == ' ')
  match p.takeBreak? with
  | none => (blanks, false, p)
  | some (c, p) =>
      if p.isAtSeparator then ([], true, p)
      else match plainBreaks p.bound p with
        | (none, p) => ([], true, p)
        | (some breaks, p) => (fold c breaks, true, p)

def plainFrom (indent : Int) (inFlow : Bool) :
    Nat → List Char → Bool → Place → List Char × Bool × Place
  | 0, text, endsLine, p => (text, endsLine, p)
  | steps + 1, text, endsLine, p =>
      let run := plainRun inFlow p.rest
      if p.isAt '#' || run.isEmpty then ([], endsLine, p)
      else
        let (gap, endsLine, q) := plainGap (p.advance run.length)
        if gap.isEmpty || q.isAt '#' || (!inFlow && (q.column : Int) < indent) then
          (text ++ run, endsLine, q)
        else
          let (others, endsLine, q) := plainFrom indent inFlow steps gap endsLine q
          (text ++ run ++ others, endsLine, q)

/-- A plain scalar of a collection with the given indentation; whether a line ends
behind its text is given too. -/
def plain (indent : Int) (inFlow : Bool) (p : Place) : List Char × Bool × Place :=
  plainFrom indent inFlow p.bound [] false p

/-- Blank lines and indentation inside quotes, where no separator may stand. -/
def quotedBreaks : Nat → Place → Option (List Char × Place)
  | 0, _ => none
  | steps + 1, p =>
      if p.isAtSeparator then none
      else
        let p := (p.span fun c => c == ' ' || c == '\t').2
        match p.takeBreak? with
        | none => some ([], p)
        | some (c, p) => (quotedBreaks steps p).map fun (cs, p) => (c :: cs, p)

def escaped? (c : Char) : Option Char :=
  List.lookup c [('0', Char.ofNat 0x00), ('a', Char.ofNat 0x07), ('b', Char.ofNat 0x08),
    ('t', '\t'), ('\t', '\t'), ('n', '\n'), ('v', Char.ofNat 0x0B), ('f', Char.ofNat 0x0C),
    ('r', '\r'), ('e', Char.ofNat 0x1B), (' ', ' '), ('"', '"'), ('\\', '\\'), ('/', '/'),
    ('N', '\u0085'), ('_', '\u00A0'), ('L', '\u2028'), ('P', '\u2029')]

/-- The number of hexadecimal digits behind an escape by code. -/
def codeLength? (c : Char) : Option Nat :=
  List.lookup c [('x', 2), ('u', 4), ('U', 8)]

def readHex? (count : Nat) (cs : List Char) : Option Nat :=
  let digits := (cs.take count).filterMap Text.hexValue?
  if digits.length = count then some (digits.foldl (fun n d => 16 * n + d) 0) else none

def letter (n : Nat) : Except Fault Text.Letter :=
  match Text.Letter.ofNumber? n with
  | some l => .ok l
  | none => .error (if 0x7FFFFFFF < n then .letterTooLarge else .noLetter)

def escape (p : Place) : Except Fault (List Text.Letter × Place) := do
  let c ← p.peek
  match escaped? c, codeLength? c, p.takeBreak? with
  | some e, _, _ => return ([.char e], p.forward)
  | none, some count, _ =>
      let l ← letter (← readHex? count p.forward.rest)
      return ([l], p.forward.advance count)
  | none, none, some (_, p) =>
      let (breaks, q) ← quotedBreaks p.bound p
      return (breaks.map .char, q)
  | none, none, none => .error .malformed

/-- Blanks inside quotes: kept before text, folded at the end of a line. -/
def quotedGap? (p : Place) : Option (List Char × Place) :=
  let (blanks, p) := p.span fun c => c == ' ' || c == '\t'
  match p.takeBreak? with
  | none => if p.peek.isNone then none else some (blanks, p)
  | some (c, p) => (quotedBreaks p.bound p).map fun (breaks, p) => (fold c breaks, p)

def quotedFrom (isDouble : Bool) : Nat → Place → Except Fault (List Text.Letter × Place)
  | 0, _ => .error .malformed
  | steps + 1, p =>
      let continueWith := fun (ls : List Text.Letter) (p : Place) => do
        let (others, q) ← quotedFrom isDouble steps p
        return (ls ++ others, q)
      match p.rest with
      | [] => .error .malformed
      | c :: next =>
          if !isDouble && c == '\'' then
            if next.head? == some '\'' then continueWith [.char '\''] (p.advance 2)
            else .ok ([], p.forward)
          else if isDouble && c == '"' then .ok ([], p.forward)
          else if isDouble && c == '\\' then do
            let (ls, q) ← escape p.forward
            continueWith ls q
          else if endsWord (some c) then do
            let (gap, q) ← quotedGap? p
            continueWith (gap.map .char) q
          else continueWith [.char c] p.forward

def quoted (isDouble : Bool) (p : Place) : Except Fault (List Text.Letter × Place) :=
  quotedFrom isDouble p.bound p.forward

/-- What happens to the line breaks at the end of a block. -/
inductive Chomping where
  | clip
  | strip
  | keep
  deriving DecidableEq, Repr

def chomping? : Option Char → Option Chomping
  | some '+' => some .keep
  | some '-' => some .strip
  | _ => none

/-- A digit that adds to the indentation. -/
def increment? (c : Option Char) : Option Nat :=
  c.bind fun c => if c.isDigit then some (c.toNat - 48) else none

/-- The header of a block: chomping and increment in any order, an increment of
zero excepted. -/
def blockHeader? (p : Place) : Option (Chomping × Option Nat × Place) := do
  let (chomping, increment, p) := match chomping? p.peek with
    | some chomping =>
        match increment? p.forward.peek with
        | some n => (chomping, some n, p.advance 2)
        | none => (chomping, none, p.forward)
    | none =>
        match increment? p.peek with
        | some n =>
            match chomping? p.forward.peek with
            | some chomping => (chomping, some n, p.advance 2)
            | none => (.clip, some n, p.forward)
        | none => (.clip, none, p)
  if increment = some 0 || !endsItem p.peek then none
  else return (chomping, increment, ← p.skipLineEnd?)

/-- Blank lines at the start of a block, and the deepest column among them. -/
def leadingLines : Nat → Nat → Place → List Char × Nat × Place
  | 0, deepest, p => ([], deepest, p)
  | steps + 1, deepest, p =>
      if p.isAt ' ' then leadingLines steps (max deepest p.forward.column) p.forward
      else match p.takeBreak? with
        | none => ([], deepest, p)
        | some (c, p) =>
            let (breaks, deepest, p) := leadingLines steps deepest p
            (c :: breaks, deepest, p)

def indentTo (column : Nat) : Nat → Place → Place
  | 0, p => p
  | steps + 1, p => if p.column < column && p.isAt ' ' then indentTo column steps p.forward else p

/-- Blank lines inside a block, and the indentation of the next line. -/
def blockBreaks (indent : Nat) : Nat → Place → List Char × Place
  | 0, p => ([], p)
  | steps + 1, p =>
      let p := indentTo indent indent p
      match p.takeBreak? with
      | none => ([], p)
      | some (c, p) =>
          let (breaks, p) := blockBreaks indent steps p
          (c :: breaks, p)

def isSpace (c : Option Char) : Bool :=
  c == some ' ' || c == some '\t'

/-- The lines of a block, given the breaks before the first one; the break behind
the last line and the breaks after that are given apart. -/
def blockLines (indent : Nat) (folded : Bool) :
    Nat → List Char → List Char → Place → List Char × List Char × List Char × Place
  | 0, lineBreak, breaks, p => ([], lineBreak, breaks, p)
  | steps + 1, lineBreak, breaks, p =>
      if p.column = indent && p.peek.isSome then
        let startsInside := !isSpace p.peek
        let (line, q) := p.span (!isBreak ·)
        let (lineBreak, q) := match q.takeBreak? with
          | some (c, q) => ([c], q)
          | none => ([], q)
        let (nextBreaks, q) := blockBreaks indent q.bound q
        if q.column = indent && q.peek.isSome then
          let joint := if folded && lineBreak == ['\n'] && startsInside && !isSpace q.peek then
              if nextBreaks.isEmpty then [' '] else []
            else lineBreak
          let (others, lineBreak, last, q) := blockLines indent folded steps [] nextBreaks q
          (breaks ++ line ++ joint ++ others, lineBreak, last, q)
        else (breaks ++ line, lineBreak, nextBreaks, q)
      else ([], lineBreak, breaks, p)

/-- A block scalar inside a collection of the given indentation, from its
indicator on. -/
def block (indent : Int) (folded : Bool) (p : Place) : Option (List Char × Place) := do
  let (chomping, increment, p) ← blockHeader? p.forward
  let least := max (indent + 1).toNat 1
  let steps := p.bound
  let (breaks, column, p) := match increment with
    | none =>
        let (breaks, deepest, p) := leadingLines steps 0 p
        (breaks, max least deepest, p)
    | some n =>
        let column := least + n - 1
        let (breaks, p) := blockBreaks column steps p
        (breaks, column, p)
  let (text, lineBreak, last, p) := blockLines column folded steps [] breaks p
  let ending := match chomping with
    | .clip => lineBreak
    | .strip => []
    | .keep => lineBreak ++ last
  return (text ++ ending, p)

end Scalar

end QueryOutline.Yaml
