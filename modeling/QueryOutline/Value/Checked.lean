import QueryOutline.Text.Integer
import QueryOutline.Text.Utf8
import QueryOutline.Value

/-!
Checked data. Reading a value of a wanted type either gives it or says what is
wrong with the data, every defect with its place, in the order of the attributes
of the wanted type.
-/

namespace QueryOutline

inductive Defect where
  | missing
  | notText
  | notUnicode
  | notMember
  | notList
  | notObject
  | notMapping
  | notInteger
  | unreadableInteger
  | integerTooLong
  | fractional
  | notFinite
  | belowLeast
  | aboveGreatest
  | notAbove
  | notBool
  | unreadableBool
  deriving DecidableEq, Repr

def Defect.code : Defect → String
  | missing => "missing"
  | notText => "string_type"
  | notUnicode => "string_unicode"
  | notMember => "enum"
  | notList => "tuple_type"
  | notObject => "model_type"
  | notMapping => "dict_type"
  | notInteger => "int_type"
  | unreadableInteger => "int_parsing"
  | integerTooLong => "int_parsing_size"
  | fractional => "int_from_float"
  | notFinite => "finite_number"
  | belowLeast => "greater_than_equal"
  | aboveGreatest => "less_than_equal"
  | notAbove => "greater_than"
  | notBool => "bool_type"
  | unreadableBool => "bool_parsing"

/-- One step from a value to a part of it. -/
inductive Step where
  | key (name : String)
  | number (n : Int)
  deriving DecidableEq, Repr

structure Problem where
  place : List Step
  defect : Defect
  deriving DecidableEq, Repr

inductive Checked (α : Type) where
  | ok (a : α)
  | failed (problems : List Problem)
  deriving DecidableEq, Repr

namespace Checked

variable {α β : Type}

/-- The problems of both sides are reported, those of the first side first. -/
def both (f : Checked (α → β)) (x : Checked α) : Checked β :=
  match f, x with
  | ok f, ok a => ok (f a)
  | ok _, failed ps => failed ps
  | failed ps, ok _ => failed ps
  | failed ps, failed qs => failed (ps ++ qs)

instance : Applicative Checked where
  pure := ok
  seq f x := both f (x ())

def defect (d : Defect) : Checked α :=
  failed [⟨[], d⟩]

/-- The problems as seen from one step further out. -/
def within (step : Step) : Checked α → Checked α
  | ok a => ok a
  | failed ps => failed (ps.map fun p => { p with place := step :: p.place })

def require (x : Checked α) (d : Defect) (condition : α → Bool) : Checked α :=
  match x with
  | ok a => if condition a then ok a else defect d
  | failed ps => failed ps

/-! What was read without a problem. -/

theorem seq_eq_ok_iff {f : Checked (α → β)} {x : Checked α} {b : β} :
    f <*> x = ok b ↔ ∃ g a, f = ok g ∧ x = ok a ∧ g a = b := by
  change both f x = ok b ↔ _
  cases f <;> cases x <;> simp [both]

theorem map_eq_ok_iff {f : α → β} {x : Checked α} {b : β} :
    f <$> x = ok b ↔ ∃ a, x = ok a ∧ f a = b := by
  change both (ok f) x = ok b ↔ _
  cases x <;> simp [both]

theorem within_eq_ok_iff {step : Step} {x : Checked α} {a : α} :
    within step x = ok a ↔ x = ok a := by
  cases x <;> simp [within]

theorem require_eq_ok_iff {x : Checked α} {d : Defect} {condition : α → Bool} {a : α} :
    x.require d condition = ok a ↔ x = ok a ∧ condition a = true := by
  cases x with
  | ok b =>
      rw [require]
      split
      · next h => exact ⟨fun heq => ⟨heq, ok.inj heq ▸ h⟩, And.left⟩
      · next h => exact ⟨nofun, fun ⟨heq, ha⟩ => absurd (ok.inj heq ▸ ha) h⟩
  | failed problems => exact ⟨nofun, fun h => nomatch h.1⟩

def ofItems (read : Value → Checked α) (index : Nat) : List Value → Checked (List α)
  | [] => ok []
  | v :: vs => List.cons <$> within (.number index) (read v) <*> ofItems read (index + 1) vs

end Checked

namespace Value

variable {α : Type}

def readText : Value → Checked String
  | text s => .ok s
  | broken _ => .defect .notUnicode
  | bytes content =>
      match Text.decodeUtf8 content with
      | some cs => .ok (String.ofList cs)
      | none => .defect .notUnicode
  | _ => .defect .notText

/-- The start of a numeral without leading zeros. A zero stays if nothing else does,
or if a fraction follows it; underscores may stand among the zeros. -/
def withoutZeros : List Char → Option (List Char)
  | '0' :: rest =>
      let zeros := rest.takeWhile fun c => c == '0' || c == '_'
      match rest.drop zeros.length with
      | [] => some [zeros.getLast?.getD '0']
      | '.' :: fraction => some (zeros.getLast?.getD '0' :: '.' :: fraction)
      | c :: cs => if c.isDigit then some (c :: cs) else none
  | c :: cs => if c.isDigit || c = '-' then some (c :: cs) else none
  | [] => none

/-- The integer part of a numeral whose fraction holds nothing but zeros. -/
def withoutFraction (numeral : List Char) : List Char :=
  let fraction := (numeral.dropWhile (· != '.')).drop 1
  if fraction.all (· == '0') then numeral.takeWhile (· != '.') else numeral

/-- A numeral without its underscores, if they stand alone and between others. -/
def withoutUnderscores (numeral : List Char) : List Char :=
  if Text.underscoresSeparate numeral then numeral.filter (· != '_') else numeral

/-- The plain form of a written integer: without blanks around it, a plus sign, leading
zeros, a fraction of zeros, and underscores. -/
def plainNumeral? (cs : List Char) : Option (List Char) := do
  let blank := Text.isIntegerBlank
  let trimmed := ((cs.dropWhile blank).reverse.dropWhile blank).reverse
  let unsigned ← match trimmed with
    | '+' :: '-' :: _ => none
    | '+' :: rest => some rest
    | _ => some trimmed
  return withoutUnderscores (withoutFraction (← withoutZeros unsigned))

/-- A plain integer: a minus sign if it is negative, and digits without leading zeros.
One that begins with too many of them is too long, whatever follows. -/
def plainInteger (cs : List Char) : Checked Int :=
  let (negative, body) := match cs with
    | '-' :: rest => (true, rest)
    | _ => (false, cs)
  let digits := body.takeWhile Char.isDigit
  let size := digits.length + if negative then 1 else 0
  let hasLeadingZero := digits.head? == some '0' && 1 < digits.length
  if digits.isEmpty || hasLeadingZero then .defect .unreadableInteger
  else if Text.maxIntegerDigits < size then .defect .integerTooLong
  else if digits.length < body.length then .defect .unreadableInteger
  else .ok (Text.applySign negative (Text.ofDigits (digits.filterMap Text.hexValue?)))

/-- A written integer of a setting, in plain form or in one that has it. -/
def integerOfText (s : String) : Checked Int :=
  match plainInteger s.toList with
  | .failed [⟨[], .unreadableInteger⟩] =>
      match plainNumeral? s.toList with
      | some numeral => plainInteger numeral
      | none => .defect .unreadableInteger
  | found => found

/-- Integers below this fit a word of 64 bits with their sign. -/
def wordBound : Nat := 0x8000000000000000

def fitsWord (n : Int) : Bool :=
  -(wordBound : Int) ≤ n && n < wordBound

/-- Integral numbers that fit a word stand for integers. -/
def integerOfReal (x : Binary64) : Checked Int :=
  if !x.isFinite then .defect .notFinite
  else match x.whole? with
    | some n => if n.natAbs < wordBound then .ok n else .defect .fractional
    | none => .defect .fractional

def readInteger : Value → Checked Int
  | bool b => .ok (if b then 1 else 0)
  | int n => .ok n
  | real x => integerOfReal x
  | text s => integerOfText s
  | broken _ => .defect .notUnicode
  | bytes content =>
      match Text.decodeUtf8 content with
      | some cs => integerOfText (String.ofList cs)
      | none => .defect .unreadableInteger
  | _ => .defect .notInteger

def boolOfText (s : String) : Checked Bool :=
  let word := String.ofList (s.toList.map Char.toLower)
  if ["1", "true", "t", "yes", "y", "on"].contains word then .ok true
  else if ["0", "false", "f", "no", "n", "off"].contains word then .ok false
  else .defect .unreadableBool

/-- A number that stands for no integer of a word is no truth value at all. -/
def boolOfInteger (n : Int) : Checked Bool :=
  if n = 1 then .ok true
  else if n = 0 then .ok false
  else if fitsWord n then .defect .unreadableBool
  else .defect .notBool

def readBool : Value → Checked Bool
  | bool b => .ok b
  | int n => boolOfInteger n
  | real x =>
      match integerOfReal x with
      | .ok n => boolOfInteger n
      | .failed _ => .defect .notBool
  | text s => boolOfText s
  | broken _ => .defect .notUnicode
  | bytes content =>
      match Text.decodeUtf8 content with
      | some cs => boolOfText (String.ofList cs)
      | none => .defect .unreadableBool
  | _ => .defect .notBool

/-- One of a fixed set of words. -/
def readMember (ofText? : String → Option α) : Value → Checked α
  | text s =>
      match ofText? s with
      | some a => .ok a
      | none => .defect .notMember
  | _ => .defect .notMember

def readList (read : Value → Checked α) : Value → Checked (List α)
  | list items => Checked.ofItems read 0 items
  | _ => .defect .notList

def readNullable (absent : α) (read : Value → Checked α) : Value → Checked α
  | null => .ok absent
  | v => read v

def required (entries : List (Value × Value)) (key : String) (read : Value → Checked α) :
    Checked α :=
  Checked.within (.key key) <|
    match lookup entries key with
    | some v => read v
    | none => .defect .missing

/-- The value at a key, or the default, which is not checked. -/
def optional (entries : List (Value × Value)) (key : String) (default : α)
    (read : Value → Checked α) : Checked α :=
  match lookup entries key with
  | some v => Checked.within (.key key) (read v)
  | none => .ok default

theorem optional_eq_ok_iff {entries : List (Value × Value)} {key : String} {default a : α}
    {read : Value → Checked α} :
    optional entries key default read = .ok a ↔
      (lookup entries key = none ∧ default = a) ∨
        ∃ v, lookup entries key = some v ∧ read v = .ok a := by
  unfold optional
  cases lookup entries key with
  | none => simp
  | some v => simp [Checked.within_eq_ok_iff]

def nullable (entries : List (Value × Value)) (key : String) (absent : α)
    (read : Value → Checked α) : Checked α :=
  optional entries key absent (readNullable absent read)

end Value

end QueryOutline
