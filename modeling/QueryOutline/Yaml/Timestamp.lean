import QueryOutline.Text.Integer
import QueryOutline.Value.Moment

/-!
Written dates and times. A date alone is written in full if nothing but its form says
that it is one; with a time of day, separated by a letter or blanks, it may leave out
leading zeros and may name an offset from universal time.
-/

namespace QueryOutline.Yaml.Timestamp

/-- Between the least and the greatest number of digits, as many as there are. -/
def digits? (least greatest : Nat) (cs : List Char) : Option (Nat × List Char) :=
  let ds := (cs.take greatest).takeWhile Char.isDigit
  if ds.length < least then none
  else some (Text.ofDigits (ds.filterMap Text.hexValue?), cs.drop ds.length)

def expect? (c : Char) : List Char → Option (List Char)
  | d :: ds => if d = c then some ds else none
  | [] => none

def date? (least : Nat) (cs : List Char) : Option (Date × List Char) := do
  let (year, cs) ← digits? 4 4 cs
  let (month, cs) ← digits? least 2 (← expect? '-' cs)
  let (day, cs) ← digits? least 2 (← expect? '-' cs)
  return (⟨year, month, day⟩, cs)

def isSpace (c : Char) : Bool :=
  c == ' ' || c == '\t'

def offset? (cs : List Char) : Option (Option Int) :=
  match cs.dropWhile isSpace with
  | [] => if cs.isEmpty then some none else none
  | ['Z'] => some (some 0)
  | sign :: rest => do
      if sign ≠ '-' && sign ≠ '+' then none
      else
        let (hour, rest) ← digits? 1 2 rest
        let (minute, rest) ←
          if rest.isEmpty then some (0, []) else digits? 2 2 (← expect? ':' rest)
        if rest.isEmpty then
          some (some (Text.applySign (sign == '-') (hour * 60 + minute)))
        else none

/-- Six digits of a fraction of a second. -/
def microseconds (fraction : List Char) : Nat :=
  Text.ofDigits (((fraction ++ List.replicate 6 '0').take 6).filterMap Text.hexValue?)

def time? (cs : List Char) : Option Time := do
  let cs ← match cs with
    | 'T' :: rest => some rest
    | 't' :: rest => some rest
    | c :: _ => if isSpace c then some (cs.dropWhile isSpace) else none
    | [] => none
  let (hour, cs) ← digits? 1 2 cs
  let (minute, cs) ← digits? 2 2 (← expect? ':' cs)
  let (second, cs) ← digits? 2 2 (← expect? ':' cs)
  let (fraction, cs) := match cs with
    | '.' :: rest => (rest.takeWhile Char.isDigit, rest.dropWhile Char.isDigit)
    | _ => ([], cs)
  return { hour, minute, second, microsecond := microseconds fraction, offset := ← offset? cs }

/-- A written moment, a date alone having at least the given number of digits in its
month and its day. -/
def moment? (least : Nat) (cs : List Char) : Option Moment :=
  match date? least cs with
  | some (date, []) => some (.date date)
  | _ => do
      let (date, rest) ← date? 1 cs
      return .dateTime date (← time? rest)

def isPlain (cs : List Char) : Bool :=
  (moment? 2 cs).isSome

def read? (cs : List Char) : Option Moment :=
  moment? 1 cs

end QueryOutline.Yaml.Timestamp
