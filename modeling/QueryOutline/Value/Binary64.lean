/-!
Floating numbers to binary64 precision, in exact arithmetic. A finite number is
a significand times a power of two, and a written decimal denotes the nearest
such number, the even one of two that are equally near.
-/

namespace QueryOutline

inductive Binary64 where
  | finite (negative : Bool) (significand : Nat) (exponent : Int)
  | infinite (negative : Bool)
  | nan
  deriving DecidableEq, Repr

namespace Binary64

/-- The nearest integer to a quotient, a half going to the even neighbour. -/
def roundQuotient (num den : Nat) : Nat :=
  let q := num / den
  let r := num % den
  if den < 2 * r || (2 * r == den && q % 2 == 1) then q + 1 else q

/-- The quotient of a positive ratio by a power, as a ratio again. -/
def scaleDown (num den base : Nat) : Int → Nat × Nat
  | .ofNat k => (num, den * Nat.pow base k)
  | .negSucc k => (num * Nat.pow base (k + 1), den)

/-- The exponent of the highest power of two that does not exceed a positive
ratio. -/
def floorLog2 (num den : Nat) : Int :=
  let guess : Int := num.log2 - den.log2
  let (n, d) := scaleDown num den 2 guess
  if n < d then guess - 1 else guess

/-- The least significand of full length: a one and 52 binary digits. -/
def leastFull : Nat := 0x10000000000000

def ofRatio (negative : Bool) (num den : Nat) : Binary64 :=
  let exponent := max (floorLog2 num den - 52) (-1074)
  let (n, d) := scaleDown num den 2 exponent
  let rounded := roundQuotient n d
  let (significand, exponent) :=
    if rounded = 2 * leastFull then (leastFull, exponent + 1) else (rounded, exponent)
  if 971 < exponent then infinite negative else finite negative significand exponent

def decimalLength (n : Nat) : Nat :=
  (Nat.toDigits 10 n).length

/-- The number nearest to the digits times a power of ten. The power may have any
size: one that is far out of range is not computed. -/
def ofDecimal (negative : Bool) (digits : Nat) (power : Int) : Binary64 :=
  let places := power + decimalLength digits
  if digits = 0 || places < -400 then finite negative 0 0
  else if 400 < places then infinite negative
  else
    let (num, den) := scaleDown digits 1 10 (-power)
    ofRatio negative num den

def whole? : Binary64 → Option Int
  | finite negative significand exponent =>
      let (num, den) := scaleDown significand 1 2 (-exponent)
      if num % den = 0 then
        some (if negative then -((num / den : Nat) : Int) else ((num / den : Nat) : Int))
      else none
  | _ => none

def isFinite : Binary64 → Bool
  | finite .. => true
  | _ => false

/-- The exponent of the highest power of ten that does not exceed a positive
ratio. -/
def floorLog10 (num den : Nat) : Int :=
  let guess : Int := decimalLength num - decimalLength den
  let (n, d) := scaleDown num den 10 guess
  if n < d then guess - 1 else guess

/-- Digits and a power of ten, less a zero at the end of the digits. -/
def reduced (digits : Nat) (power : Int) : Nat × Int :=
  if digits % 10 = 0 then (digits / 10, power + 1) else (digits, power)

/-- The nearest of the two neighbours with the given number of digits that reads
back as the positive number, with its power of ten. The upper neighbour may be a power
of ten, which has fewer digits. -/
def shortest? (significand : Nat) (exponent : Int) (digits : Nat) : Option (Nat × Int) :=
  let (num, den) := scaleDown significand 1 2 (-exponent)
  let power := floorLog10 num den - digits + 1
  let (n, d) := scaleDown num den 10 power
  let low := n / d
  let readsBack := fun m => ofDecimal false m power == ofRatio false num den
  let nearest := roundQuotient n d
  let other := if nearest = low then low + 1 else low
  if readsBack nearest then some (reduced nearest power)
  else if readsBack other then some (reduced other power)
  else none

/-- The fewest decimal digits that read back as the positive number. -/
def shortest (significand : Nat) (exponent : Int) : Nat × Int :=
  ((List.range 17).findSome? fun n => shortest? significand exponent (n + 1)).getD (0, 0)

/-- Digits and a power of ten as text: positional from 10⁻⁴ up to below 10¹⁶,
with an exponent of at least two digits beyond. -/
def decimalText (digits : Nat) (power : Int) : String :=
  let ds := (toString digits).toList
  let point := power + ds.length
  let zeros := fun n => List.replicate n '0'
  String.ofList <|
    if -4 < point && point ≤ 16 then
      if point ≤ 0 then '0' :: '.' :: (zeros (-point).toNat ++ ds)
      else if (ds.length : Int) ≤ point then ds ++ zeros (point - ds.length).toNat ++ ['.', '0']
      else ds.take point.toNat ++ '.' :: ds.drop point.toNat
    else
      let exponent := point - 1
      let size := (toString exponent.natAbs).toList
      ds.take 1 ++ (if ds.length = 1 then [] else '.' :: ds.drop 1) ++
        'e' :: (if exponent < 0 then '-' else '+') :: (zeros (2 - size.length) ++ size)

def text : Binary64 → String
  | nan => "nan"
  | infinite negative => if negative then "-inf" else "inf"
  | finite negative significand exponent =>
      (if negative then "-" else "") ++
        if significand = 0 then "0.0"
        else
          let (digits, power) := shortest significand exponent
          decimalText digits power

end Binary64

end QueryOutline
