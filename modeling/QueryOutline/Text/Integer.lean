import QueryOutline.Text.Blank
import QueryOutline.Text.DecimalDigit
import QueryOutline.Text.Quoted

/-!
Written integers: an optional sign and digits, with single underscores between
digits and blanks around the whole. The information separators are not blank here.
Decimal digits may be those of any script; in the bases two, eight and sixteen the
base may be marked behind a leading zero.
-/

namespace QueryOutline.Text

inductive IntegerFault where
  | malformed
  | tooManyDigits (count : Nat)
  deriving DecidableEq, Repr

/-- Decimal integers of more digits than this are not read. -/
def maxIntegerDigits : Nat := 4300

def tooLongMessage (count : Nat) : String :=
  "Exceeds the limit (" ++ toString maxIntegerDigits ++
    " digits) for integer string conversion: value has " ++ toString count ++
    " digits; use sys.set_int_max_str_digits() to increase the limit"

def IntegerFault.message (base : Nat) (text : List Letter) : IntegerFault → String
  | malformed =>
      "invalid literal for int() with base " ++ toString base ++ ": " ++ quoteStart text
  | tooManyDigits count => tooLongMessage count

def isIntegerBlank (c : Char) : Bool :=
  isBlank c && !(0x1C ≤ c.toNat && c.toNat ≤ 0x1F)

/-- Underscores stand alone, and only between other characters. -/
def underscoresSeparate : List Char → Bool
  | [] => false
  | [c] => c != '_'
  | c :: next :: rest =>
      c != '_' && (if next = '_' then underscoresSeparate rest
        else underscoresSeparate (next :: rest))

def splitSign : List Char → Bool × List Char
  | '-' :: rest => (true, rest)
  | '+' :: rest => (false, rest)
  | cs => (false, cs)

def ofDigitsIn (base : Nat) (digits : List Nat) : Nat :=
  digits.foldl (fun n d => base * n + d) 0

def ofDigits (digits : List Nat) : Nat :=
  ofDigitsIn 10 digits

def applySign (negative : Bool) (n : Nat) : Int :=
  if negative then -(n : Int) else n

/-- The digit of ASCII for a decimal digit of any script. -/
def plainDigit (c : Char) : Char :=
  match digitValue? c with
  | some n => Char.ofNat (0x30 + n)
  | none => c

def baseMarks : Nat → List Char
  | 2 => ['b', 'B']
  | 8 => ['o', 'O']
  | 16 => ['x', 'X']
  | _ => []

/-- What follows the mark of the base, and an underscore behind it. -/
def withoutMark (base : Nat) : List Char → List Char
  | '0' :: c :: rest =>
      if (baseMarks base).contains c then
        if rest.head? = some '_' then rest.drop 1 else rest
      else '0' :: c :: rest
  | cs => cs

/-- An integer of a base of at most sixteen. A decimal one is limited in length, which
is found out before what follows its digits is looked at. -/
def readInBase (base : Nat) (cs : List Char) : Except IntegerFault Int :=
  let (negative, body) := splitSign ((cs.dropWhile isIntegerBlank).map plainDigit)
  let isNumeral := fun c => c == '_' || (hexValue? c).any (· < base)
  let body := withoutMark base body
  let numeral := body.takeWhile isNumeral
  let digits := numeral.filterMap hexValue?
  if !underscoresSeparate numeral then .error .malformed
  else if base = 10 && maxIntegerDigits < digits.length then
    .error (.tooManyDigits digits.length)
  else if !(body.dropWhile isNumeral).all isIntegerBlank then .error .malformed
  else .ok (applySign negative (ofDigitsIn base digits))

def readInteger (s : String) : Except IntegerFault Int :=
  readInBase 10 s.toList

end QueryOutline.Text
