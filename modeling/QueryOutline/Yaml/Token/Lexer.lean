import QueryOutline.Yaml.Token
import QueryOutline.Yaml.Token.Tag

/-!
From the text of a settings file to its tokens. The state of the lexer knows the
indentation of the enclosing block collections, the depth of flow collections,
and at each depth the token that would be a key if a colon followed it. Until it is
known whether it is one, neither that token nor those behind it are released.
-/

namespace QueryOutline.Yaml

/-- A token that a colon on the same line makes a key. -/
structure KeyCandidate where
  /-- The number of tokens before it. -/
  number : Nat
  /-- Nothing but a key can stand here. -/
  required : Bool
  index : Nat
  line : Nat
  column : Nat
  deriving Repr

structure Lexer where
  place : Place
  tokens : Array Token := #[]
  /-- Brackets that are open; below zero, brackets that close nothing. -/
  flowDepth : Int := 0
  indent : Int := -1
  outerIndents : List Int := []
  keyAllowed : Bool := true
  candidates : List (Int × KeyCandidate) := []
  deriving Repr

namespace Lexer

def maxKeyLength : Nat := 1024

def push (s : Lexer) (t : Token) : Lexer :=
  { s with tokens := s.tokens.push t }

def insertAt (s : Lexer) (number : Nat) (t : Token) : Lexer :=
  { s with tokens := (s.tokens.extract 0 number).push t ++ s.tokens.extract number s.tokens.size }

/-- Blanks, comments and line breaks before the next token. Behind a line break a
key is allowed, outside flow collections. -/
def skipSpace : Nat → Lexer → Lexer
  | 0, s => s
  | steps + 1, s =>
      let p := s.place.skipBlanks
      let p := if p.isAt '#' then (p.span (!isBreak ·)).2 else p
      match p.takeBreak? with
      | some (_, p) => skipSpace steps
          { s with place := p, keyAllowed := s.keyAllowed || s.flowDepth == 0 }
      | none => { s with place := p }

/-- Give up candidates that end up on another line or too far away. A required one
cannot be given up. -/
def dropStale? (s : Lexer) : Option Lexer :=
  let isStale := fun (c : Int × KeyCandidate) =>
    c.2.line != s.place.line || decide (maxKeyLength < s.place.index - c.2.index)
  if s.candidates.any fun c => isStale c && c.2.required then none
  else some { s with candidates := s.candidates.filter (!isStale ·) }

/-- Close the block collections that are indented deeper than a column. -/
def unwind (column : Int) : List Int → Lexer → Lexer
  | [], s => s
  | outer :: outers, s =>
      if column < s.indent then
        unwind column outers { s.push .blockEnd with indent := outer, outerIndents := outers }
      else s

/-- Blocks are closed by indentation outside flow collections only. -/
def unwindTo (s : Lexer) (column : Int) : Lexer :=
  if s.flowDepth = 0 then unwind column s.outerIndents s else s

/-- Open a block collection at a column, if it is indented deeper than the
enclosing one and no flow collection is open. -/
def deepen (s : Lexer) (column : Nat) : Option Lexer :=
  if s.flowDepth = 0 ∧ s.indent < column then
    some { s with indent := column, outerIndents := s.indent :: s.outerIndents }
  else none

def dropCandidate? (s : Lexer) : Option Lexer :=
  match s.candidates.lookup s.flowDepth with
  | some c =>
      if c.required then none
      else some { s with candidates := s.candidates.filter (·.1 != s.flowDepth) }
  | none => some s

/-- Remember that the next token may be a key. -/
def addCandidate? (s : Lexer) : Option Lexer :=
  if !s.keyAllowed then some s
  else do
    let s ← s.dropCandidate?
    let p := s.place
    let candidate : KeyCandidate :=
      { number := s.tokens.size, index := p.index, line := p.line, column := p.column
        required := s.flowDepth == 0 && s.indent == p.column }
    return { s with candidates := (s.flowDepth, candidate) :: s.candidates }

def forward (s : Lexer) (count : Nat := 1) : Lexer :=
  { s with place := s.place.advance count }

/-- The end of everything that is open, before a directive or a separator. -/
def endDocument? (s : Lexer) : Option Lexer := do
  let s ← (s.unwindTo (-1)).dropCandidate?
  return { s with keyAllowed := false }

def separator? (s : Lexer) (t : Token) : Option Lexer := do
  let s ← s.endDocument?
  return (s.push t).forward 3

def flowStart? (s : Lexer) (t : Token) : Option Lexer := do
  let s ← s.addCandidate?
  return ({ s with flowDepth := s.flowDepth + 1, keyAllowed := true }.push t).forward

/-- A bracket that closes nothing is a token too; no document can hold it. -/
def flowEnd? (s : Lexer) (t : Token) : Option Lexer := do
  let s ← s.dropCandidate?
  return ({ s with flowDepth := s.flowDepth - 1, keyAllowed := false }.push t).forward

def flowEntry? (s : Lexer) : Option Lexer := do
  let s ← s.dropCandidate?
  return ({ s with keyAllowed := true }.push .flowEntry).forward

/-- Open a block collection for an indicator at the place. -/
def openBlock? (s : Lexer) (start : Token) : Option Lexer :=
  if s.flowDepth ≠ 0 then some s
  else if !s.keyAllowed then none
  else match s.deepen s.place.column with
    | some deeper => some (deeper.push start)
    | none => some s

def blockEntry? (s : Lexer) : Option Lexer := do
  let s ← s.openBlock? .blockSequenceStart
  let s ← { s with keyAllowed := true }.dropCandidate?
  return (s.push .blockEntry).forward

def explicitKey? (s : Lexer) : Option Lexer := do
  let s ← s.openBlock? .blockMappingStart
  let s ← { s with keyAllowed := s.flowDepth == 0 }.dropCandidate?
  return (s.push .key).forward

/-- A colon makes the candidate at its depth a key. Without one it belongs to an
explicit key, or it has no key at all. -/
def value? (s : Lexer) : Option Lexer :=
  match s.candidates.lookup s.flowDepth with
  | some c =>
      let s := { s with candidates := s.candidates.filter (·.1 != s.flowDepth) }
      let s := s.insertAt c.number .key
      let s := match s.deepen c.column with
        | some deeper => deeper.insertAt c.number .blockMappingStart
        | none => s
      some ({ s with keyAllowed := false }.push .value).forward
  | none => do
      let s ← s.openBlock? .blockMappingStart
      let s ← { s with keyAllowed := s.flowDepth == 0 }.dropCandidate?
      return (s.push .value).forward

def keyToken (s : Lexer) (read : Place → Except Fault (Token × Place)) : Except Fault Lexer := do
  let s ← s.addCandidate?
  let (t, place) ← read s.place
  return { s.push t with place, keyAllowed := false }

def quoted (s : Lexer) (isDouble : Bool) : Except Fault Lexer :=
  s.keyToken fun p => do
    let (content, q) ← Scalar.quoted isDouble p
    return (.scalar content false, q)

def named (s : Lexer) (token : String → Token) : Except Fault Lexer :=
  s.keyToken fun p => do
    let (name, q) ← p.takeAnchor?
    return (token name, q)

def directive (s : Lexer) : Except Fault Lexer := do
  let s ← s.endDocument?
  let (t, place) ← s.place.takeDirective
  return { s.push t with place }

def block? (s : Lexer) (folded : Bool) : Option Lexer := do
  let s ← s.dropCandidate?
  let (text, place) ← Scalar.block s.indent folded s.place
  return { s.push (.scalar (text.map .char) false) with place, keyAllowed := true }

def plain? (s : Lexer) : Option Lexer := do
  let s ← s.addCandidate?
  let (text, keyAllowed, place) := Scalar.plain (s.indent + 1) (s.flowDepth != 0) s.place
  return { s.push (.scalar (text.map .char) true) with place, keyAllowed }

/-- Whether plain text may begin with the character, given the one behind it. -/
def startsPlain (inFlow : Bool) (c : Char) (next : Option Char) : Bool :=
  !(endsWord (some c) || "-?:,[]\x7b\x7d#&*!|>'\"%@\u0060".toList.contains c) ||
    (!endsWord next && (c == '-' || (!inFlow && (c == '?' || c == ':'))))

def token (s : Lexer) (c : Char) : Except Fault Lexer :=
  let p := s.place
  let next := p.rest[1]?
  let inFlow := s.flowDepth != 0
  let isSeparator := p.column == 0 && p.isAtSeparator
  if c == '%' && p.column == 0 then s.directive
  else if c == '-' && isSeparator then liftM (s.separator? .documentStart)
  else if c == '.' && isSeparator then liftM (s.separator? .documentEnd)
  else if c == '[' then liftM (s.flowStart? .flowSequenceStart)
  else if c == '\x7b' then liftM (s.flowStart? .flowMappingStart)
  else if c == ']' then liftM (s.flowEnd? .flowSequenceEnd)
  else if c == '\x7d' then liftM (s.flowEnd? .flowMappingEnd)
  else if c == ',' then liftM s.flowEntry?
  else if c == '-' && endsWord next then liftM s.blockEntry?
  else if c == '?' && (inFlow || endsWord next) then liftM s.explicitKey?
  else if c == ':' && (inFlow || endsWord next) then liftM s.value?
  else if c == '*' then s.named .reference
  else if c == '&' then s.named .anchor
  else if c == '!' then s.keyToken fun p => liftM p.takeTag?
  else if c == '|' && !inFlow then liftM (s.block? false)
  else if c == '>' && !inFlow then liftM (s.block? true)
  else if c == '\'' then s.quoted false
  else if c == '"' then s.quoted true
  else if startsPlain inFlow c next then liftM s.plain?
  else .error .malformed

/-- Read one token, and give up the candidates that it leaves behind. Nothing is given
at the end of the text. -/
def advance? (s : Lexer) : Except Fault (Option Lexer) := do
  let s ← (s.skipSpace s.place.bound).dropStale?
  let s := s.unwindTo s.place.column
  match s.place.peek with
  | none => return none
  | some c => return some (← (← s.token c).dropStale?)

/-- The tokens in front of the first one that may be a key. -/
def released (s : Lexer) : List Token :=
  s.tokens.toList.take (s.candidates.foldl (fun n c => min n c.2.number) s.tokens.size)

/-- The tokens at the end of the text, where everything that is open ends. -/
def ending? (s : Lexer) : Option (List Token) := do
  let s ← (s.skipSpace s.place.bound).dropStale?
  return (← s.endDocument?).tokens.toList

/-- The tokens from a state on. Every token takes a character at least, which
bounds the number of steps. -/
def run : Nat → Lexer → Tokens
  | 0, s => ⟨s.released, some .malformed⟩
  | steps + 1, s =>
      match s.advance? with
      | .ok (some next) => run steps next
      | .ok none =>
          match s.ending? with
          | some ts => ⟨ts, none⟩
          | none => ⟨s.released, some .malformed⟩
      | .error fault => ⟨s.released, some fault⟩

end Lexer

def isAllowed (c : Char) : Bool :=
  let n := c.toNat
  n == 0x09 || n == 0x0A || n == 0x0D || (0x20 ≤ n && n ≤ 0x7E) || n == 0x85 ||
    (0xA0 ≤ n && n ≤ 0xFFFD) || 0x10000 ≤ n

/-- The tokens of a text. A text with a character that is not allowed has none, and a
byte order mark at its start is skipped. -/
def Tokens.ofText (text : String) : Tokens :=
  let cs := text.toList
  if !cs.all isAllowed then ⟨[], some .malformed⟩
  else
    let start := Place.ofText cs
    let place := if start.isAt '\uFEFF' then start.forward else start
    Lexer.run start.bound { place }

end QueryOutline.Yaml
