import QueryOutline.Text.Search
import QueryOutline.Yaml.Timestamp

/-!
The kinds of data and how plain text tells them apart: words for truth values and
null, integers in four bases and in sixties, floating numbers, dates and times.
Underscores are ignored in numbers, and so is a line break at the end of a text.
-/

namespace QueryOutline.Yaml

inductive Tag where
  | null
  | bool
  | int
  | float
  | timestamp
  | text
  | binary
  | sequence
  | mapping
  | set
  | ordered
  | pairs
  /-- The key whose value is merged into a mapping. -/
  | merge
  /-- The key that stands for the mapping's own value. -/
  | default
  | unknown
  deriving DecidableEq, Repr

namespace Tag

/-- What the names of all known kinds begin with. -/
def base : String := "tag:yaml.org,2002:"

def names : List (String × Tag) :=
  [("null", null), ("bool", bool), ("int", int), ("float", float), ("timestamp", timestamp),
    ("str", text), ("binary", binary), ("seq", sequence), ("map", mapping), ("set", set),
    ("omap", ordered), ("pairs", pairs), ("merge", merge), ("value", default)]

def ofName (name : String) : Tag :=
  ((names.find? fun n => base ++ n.1 == name).map (·.2)).getD unknown

end Tag

namespace Plain

def isNullWord (s : String) : Bool :=
  ["", "~", "null", "Null", "NULL"].contains s

def isBoolWord (s : String) : Bool :=
  ["yes", "Yes", "YES", "no", "No", "NO", "true", "True", "TRUE", "false", "False", "FALSE",
    "on", "On", "ON", "off", "Off", "OFF"].contains s

def isNumeral (c : Char) : Bool :=
  c.isDigit || c == '_'

def isDecimal : List Char → Bool
  | c :: cs => c.isDigit && cs.all isNumeral
  | [] => false

/-- A number below sixty of one or two digits. -/
def isSixtieth : List Char → Bool
  | [c] => c.isDigit
  | [c, d] => '0' ≤ c && c ≤ '5' && d.isDigit
  | _ => false

/-- A number in sixties, the first part not beginning with zero if it is whole. -/
def isSixties (isFirst : List Char → Bool) (cs : List Char) : Bool :=
  match Text.splitAtEach ':' cs with
  | first :: second :: others => isFirst first && (second :: others).all isSixtieth
  | _ => false

def isPositive (cs : List Char) : Bool :=
  isDecimal cs && cs.head? != some '0'

def isInteger (cs : List Char) : Bool :=
  match (Text.splitSign cs).2 with
  | '0' :: 'b' :: digits => !digits.isEmpty && digits.all fun c => c == '0' || c == '1' || c == '_'
  | '0' :: 'x' :: digits =>
      !digits.isEmpty && digits.all fun c => (Text.hexValue? c).isSome || c == '_'
  | '0' :: digits => digits.all fun c => ('0' ≤ c && c ≤ '7') || c == '_'
  | body => isPositive body || isSixties isPositive body

def isExponent : List Char → Bool
  | [] => true
  | e :: sign :: digits =>
      (e == 'e' || e == 'E') && (sign == '-' || sign == '+') && !digits.isEmpty &&
        digits.all Char.isDigit
  | _ => false

def isFraction (cs : List Char) : Bool :=
  isExponent (cs.dropWhile isNumeral)

def isFloat (cs : List Char) : Bool :=
  let (isSigned, body) := match cs with
    | '-' :: rest => (true, rest)
    | '+' :: rest => (true, rest)
    | _ => (false, cs)
  match body with
  | '.' :: rest =>
      [".inf", ".Inf", ".INF"].contains (String.ofList body) ||
        (!isSigned && ([".nan", ".NaN", ".NAN"].contains (String.ofList body) ||
          (rest.head?.any Char.isDigit && isFraction rest)))
  | _ =>
      let whole := body.takeWhile (· != '.')
      match body.dropWhile (· != '.') with
      | '.' :: rest =>
          (isDecimal whole && isFraction rest) || (isSixties isDecimal whole && rest.all isNumeral)
      | _ => false

def isIndicator (s : String) : Bool :=
  ["!", "&", "*"].contains s

def withoutBreak (cs : List Char) : List Char :=
  if cs.getLast? = some '\n' then cs.dropLast else cs

def tag (text : List Char) : Tag :=
  let cs := withoutBreak text
  let s := String.ofList cs
  if isBoolWord s then .bool
  else if isFloat cs then .float
  else if isInteger cs then .int
  else if s = "<<" then .merge
  else if isNullWord s && (text.isEmpty || !cs.isEmpty) then .null
  else if Timestamp.isPlain cs then .timestamp
  else if s = "=" then .default
  else if isIndicator s then .unknown
  else .text

end Plain

end QueryOutline.Yaml
