import QueryOutline.Value.Binary64

/-!
Sums and products of floating numbers: the exact result, rounded once. A sum of zero
is negative only if both terms are.
-/

namespace QueryOutline.Binary64

def ofScaled (negative : Bool) (magnitude : Nat) (exponent : Int) : Binary64 :=
  if magnitude = 0 then finite negative 0 0
  else
    let (num, den) := scaleDown magnitude 1 2 (-exponent)
    ofRatio negative num den

/-- The number nearest to an integer, unless the integer is too large for any. -/
def ofNat? (n : Nat) : Option Binary64 :=
  match ofScaled false n 0 with
  | finite negative significand exponent => some (finite negative significand exponent)
  | _ => none

def neg : Binary64 → Binary64
  | finite negative significand exponent => finite (!negative) significand exponent
  | infinite negative => infinite (!negative)
  | nan => nan

/-- An integer with its sign, in units of a power of two. -/
def units (negative : Bool) (significand : Nat) (exponent least : Int) : Int :=
  let magnitude := significand * Nat.pow 2 (exponent - least).toNat
  if negative then -(magnitude : Int) else magnitude

def add : Binary64 → Binary64 → Binary64
  | nan, _ => nan
  | _, nan => nan
  | infinite s, infinite t => if s = t then infinite s else nan
  | infinite s, finite .. => infinite s
  | finite .., infinite t => infinite t
  | finite s m e, finite t n f =>
      let least := min e f
      let sum := units s m e least + units t n f least
      ofScaled (if sum = 0 then s && t else decide (sum < 0)) sum.natAbs least

def mul : Binary64 → Binary64 → Binary64
  | nan, _ => nan
  | _, nan => nan
  | infinite s, infinite t => infinite (s != t)
  | infinite s, finite t n _ => if n = 0 then nan else infinite (s != t)
  | finite s m _, infinite t => if m = 0 then nan else infinite (s != t)
  | finite s m e, finite t n f => ofScaled (s != t) (m * n) (e + f)

end QueryOutline.Binary64
