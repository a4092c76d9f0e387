import QueryOutline.Text.Utf8
import QueryOutline.Yaml.Token
import QueryOutline.Yaml.Token.Scalar

/-!
Tags, anchors and directives as they are written.
-/

namespace QueryOutline.Yaml

def isNameChar (c : Char) : Bool :=
  c.isAlphanum || c == '-' || c == '_'

def isUriChar (c : Char) : Bool :=
  c.isAlphanum || "-;/?:@&=+$,_.!~*'()[]".toList.contains c

namespace Place

/-- A name of at least one character. -/
def takeName? (p : Place) : Option (String × Place) :=
  let (name, p) := p.span isNameChar
  if name.isEmpty then none else some (String.ofList name, p)

/-- The bytes of percent escapes that follow one another. -/
def percentBytes : Nat → Place → Option (List UInt8 × Place)
  | 0, _ => none
  | steps + 1, p =>
      if p.isAt '%' then do
        let n ← Scalar.readHex? 2 p.forward.rest
        let (others, q) ← percentBytes steps (p.advance 3)
        return (n.toUInt8 :: others, q)
      else some ([], p)

def uriFrom : Nat → Place → Option (List Char × Place)
  | 0, _ => none
  | steps + 1, p =>
      let (plain, p) := p.span isUriChar
      if p.isAt '%' then do
        let (bytes, p) ← percentBytes p.bound p
        let decoded ← Text.decodeUtf8 bytes
        let (others, p) ← uriFrom steps p
        return (plain ++ decoded ++ others, p)
      else some (plain, p)

/-- The rest of a tag, which is not empty. Escapes stand for bytes of UTF-8. -/
def takeUri? (p : Place) : Option (String × Place) := do
  let (uri, q) ← uriFrom p.bound p
  if q.index = p.index then none else return (String.ofList uri, q)

/-- A handle: an exclamation mark, alone or with a name and a second one. -/
def takeHandle? (p : Place) : Option (String × Place) :=
  if !p.isAt '!' then none
  else if p.forward.isAt ' ' then some ("!", p.forward)
  else
    let (name, q) := p.forward.span isNameChar
    if q.isAt '!' then some (String.ofList ('!' :: (name ++ ['!'])), q.forward) else none

/-- Whether a handle ends before the next blank. -/
def hasHandle : List Char → Bool
  | [] => false
  | c :: cs => if endsItem (some c) then false else c == '!' || hasHandle cs

def takeTag? (p : Place) : Option (Token × Place) := do
  let inside := p.forward
  let (handle, suffix, q) ←
    if inside.isAt '<' then do
      let (suffix, q) ← inside.forward.takeUri?
      if q.isAt '>' then some (none, suffix, q.forward) else none
    else if endsWord inside.peek then some (none, "!", inside)
    else if hasHandle inside.rest then do
      let (handle, q) ← p.takeHandle?
      let (suffix, q) ← q.takeUri?
      some (some handle, suffix, q)
    else do
      let (suffix, q) ← inside.takeUri?
      some (some "!", suffix, q)
  if endsItem q.peek then return (.tag handle suffix, q) else none

def takeAnchor? (p : Place) : Option (String × Place) := do
  let (name, q) ← p.forward.takeName?
  if endsWord q.peek || q.peek.any ['?', ':', ',', ']', '\x7d', '%', '@', '\u0060'].contains then
    return (name, q)
  else none

/-- A number of a directive, which is limited in length like any decimal integer. -/
def takeNumber (p : Place) : Except Fault (Nat × Place) :=
  let (digits, q) := p.span Char.isDigit
  if digits.isEmpty then .error .malformed
  else match Text.readInBase 10 digits with
    | .ok n => .ok (n.toNat, q)
    | .error fault => .error (.integer (digits.map .char) 10 fault)

/-- A version of two numbers, of which the first one matters. -/
def takeVersion (p : Place) : Except Fault (Token × Place) := do
  let (major, q) ← p.takeNumber
  if !q.isAt '.' then .error .malformed
  else
    let (_, q) ← q.forward.takeNumber
    if endsItem q.peek then return (.versionDirective major, q) else .error .malformed

def takeHandleTarget? (p : Place) : Option (Token × Place) := do
  let (handle, q) ← p.takeHandle?
  if !q.isAt ' ' then none
  else
    let (target, q) ← q.skipBlanks.takeUri?
    if endsItem q.peek then return (.tagDirective handle target, q) else none

def takeDirective (p : Place) : Except Fault (Token × Place) := do
  let (name, q) ← p.forward.takeName?
  if !endsItem q.peek then .error .malformed
  else
    let (token, q) ←
      if name = "YAML" then q.skipBlanks.takeVersion
      else if name = "TAG" then liftM q.skipBlanks.takeHandleTarget?
      else .ok (.otherDirective, (q.span (!isBreak ·)).2)
    return (token, ← q.skipLineEnd?)

end Place

end QueryOutline.Yaml
