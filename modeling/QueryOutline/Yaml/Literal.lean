import QueryOutline.Text.LowerCase
import QueryOutline.Value
import QueryOutline.Value.Binary64.Arithmetic
import QueryOutline.Value.Binary64.Numeral
import QueryOutline.Yaml.Base64
import QueryOutline.Yaml.Fault
import QueryOutline.Yaml.Schema

/-!
The values of scalars by their kind. A tag in front of a scalar may ask for a kind that
its text does not look like; more texts are read as a number or a date then, and the
others are at fault.
-/

namespace QueryOutline.Yaml.Literal

open Text (Letter)

/-- The sign of a number and what follows it. Underscores have been dropped, and a
number needs a letter at least. -/
def signed (ls : List Letter) : Except Fault (Bool × List Letter) :=
  match ls with
  | [] => .error .noNumber
  | .char '-' :: rest => .ok (true, rest)
  | .char '+' :: rest => .ok (false, rest)
  | ls => .ok (false, ls)

def withoutUnderscores (ls : List Letter) : List Letter :=
  ls.filter (· != .char '_')

def colonParts (ls : List Letter) : List (List Letter) :=
  Text.splitAtEach (.char ':') ls

def integerIn (base : Nat) (ls : List Letter) : Except Fault Int :=
  match Text.readInBase base (Text.shownLetters ls) with
  | .ok n => .ok n
  | .error fault => .error (.integer ls base fault)

def ofSixties (digits : List Int) : Int :=
  digits.foldl (fun n d => 60 * n + d) 0

/-- An integer without its sign. A leading zero makes it octal. -/
def unsigned (body : List Letter) : Except Fault Int :=
  match body with
  | [] => .error .noNumber
  | [.char '0'] => .ok 0
  | .char '0' :: .char 'b' :: digits => integerIn 2 digits
  | .char '0' :: .char 'x' :: digits => integerIn 16 digits
  | .char '0' :: _ => integerIn 8 body
  | _ =>
      if body.contains (.char ':') then ofSixties <$> (colonParts body).mapM (integerIn 10)
      else integerIn 10 body

def integer (content : List Letter) : Except Fault Int := do
  let (negative, body) ← signed (withoutUnderscores content)
  let n ← unsigned body
  return if negative then -n else n

def floatOf (ls : List Letter) : Except Fault Binary64 :=
  match Binary64.ofText? (Text.shownLetters ls) with
  | some x => .ok x
  | none => .error (.notFloat ls)

/-- The sum of parts in sixties, from the last part to the first one, every step of it
rounded; the weight of each part has to be a floating number too. -/
def sumSixties (weight : Nat) (sum : Binary64) : List Binary64 → Except Fault Binary64
  | [] => .ok sum
  | digit :: digits =>
      match Binary64.ofNat? weight with
      | some w => sumSixties (60 * weight) (sum.add (digit.mul w)) digits
      | none => .error .tooManyParts

def unsignedFloat (body : List Letter) : Except Fault Binary64 :=
  match Text.ofLetters? body with
  | some ".inf" => .ok (.infinite false)
  | some ".nan" => .ok .nan
  | _ =>
      if body.contains (.char ':') then do
        let digits ← (colonParts body).mapM floatOf
        sumSixties 1 (.finite false 0 0) digits.reverse
      else floatOf body

def signedFloat (content : List Letter) : Except Fault (Bool × List Letter) :=
  signed (Text.lower (withoutUnderscores content))

def float (content : List Letter) : Except Fault Binary64 := do
  let (negative, body) ← signedFloat content
  let x ← unsignedFloat body
  return if negative then x.neg else x

/-- Whether a floating number is the one that is no number and always the same. -/
def isCommonNan (content : List Letter) : Bool :=
  match signedFloat content with
  | .ok (_, body) => Text.ofLetters? body == some ".nan"
  | .error _ => false

def bool (content : List Letter) : Except Fault Bool :=
  let word := (Text.ofLetters? (Text.lower content)).getD ""
  if ["yes", "true", "on"].contains word then .ok true
  else if ["no", "false", "off"].contains word then .ok false
  else .error .notBool

def moment (content : List Letter) : Except Fault Moment :=
  match Timestamp.read? (Plain.withoutBreak (Text.shownLetters content)) with
  | none => .error .notMoment
  | some m =>
      match m.fault? with
      | some fault => .error (.date fault)
      | none => .ok m

def value (tag : Tag) (content : List Letter) : Except Fault Value :=
  match tag with
  | .null => .ok .null
  | .bool => .bool <$> bool content
  | .int => .int <$> integer content
  | .float => .real <$> float content
  | .timestamp => .moment <$> moment content
  | .text => .ok (.ofLetters content)
  | .binary =>
      match Base64.decode? (Text.shownLetters content) with
      | some bytes => .ok (.bytes bytes)
      | none => .error .malformed
  | _ => .error .malformed

end QueryOutline.Yaml.Literal
