import QueryOutline.Text.Integer
import QueryOutline.Value.Binary64

/-!
Written floating numbers: a sign, decimal digits of any script with a point among or
around them, and a power of ten; or a word for infinity or for no number. Blanks may
stand around the whole.
-/

namespace QueryOutline.Binary64

def power? : List Char → Option Int
  | [] => some 0
  | e :: exponent =>
      let (negative, digits) := Text.splitSign exponent
      if (e == 'e' || e == 'E') && !digits.isEmpty && digits.all Char.isDigit then
        some (Text.applySign negative (Text.ofDigits (digits.filterMap Text.hexValue?)))
      else none

def decimal? (cs : List Char) : Option (Nat × Int) := do
  let whole := cs.takeWhile Char.isDigit
  let rest := cs.drop whole.length
  let (fraction, rest) := match rest with
    | '.' :: more => (more.takeWhile Char.isDigit, more.dropWhile Char.isDigit)
    | _ => ([], rest)
  let power ← power? rest
  if whole.isEmpty && fraction.isEmpty then none
  else return (Text.ofDigits ((whole ++ fraction).filterMap Text.hexValue?),
    power - fraction.length)

def isInfinityWord (word : String) : Bool :=
  word == "inf" || word == "infinity"

def ofText? (cs : List Char) : Option Binary64 :=
  let blank := Text.isIntegerBlank
  let trimmed := ((cs.dropWhile blank).reverse.dropWhile blank).reverse
  let (negative, body) := Text.splitSign (trimmed.map Text.plainDigit)
  let word := String.ofList (body.map Char.toLower)
  if isInfinityWord word then some (infinite negative)
  else if word = "nan" then some nan
  else (decimal? body).map fun (digits, power) => ofDecimal negative digits power

end QueryOutline.Binary64
